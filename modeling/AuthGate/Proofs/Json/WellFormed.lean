import AuthGate.Proofs.Json.Fields

set_option autoImplicit false

/-! # Well-formed documents

The documents that are read or put together: the fields of every object are sorted by name, each name
once, and every double is finite. -/

namespace AuthGate

/-- Neither infinite nor not a number. -/
def Number.IsFinite : Number → Prop
  | .whole _ => True
  | .double d => d.isFinite = true

mutual

/-- A document whose objects are sorted and whose numbers are finite, at every depth. -/
def Json.WellFormed : Json → Prop
  | .number n => n.IsFinite
  | .array items => Json.ItemsWellFormed items
  | .object fields => Fields.Sorted fields ∧ Json.FieldsWellFormed fields
  | _ => True

/-- Documents that are well-formed. -/
def Json.ItemsWellFormed : List Json → Prop
  | [] => True
  | v :: vs => v.WellFormed ∧ Json.ItemsWellFormed vs

/-- Named documents that are well-formed. -/
def Json.FieldsWellFormed : List (String × Json) → Prop
  | [] => True
  | (_, v) :: rest => v.WellFormed ∧ Json.FieldsWellFormed rest

end

namespace Json

theorem itemsWellFormed_iff {items : List Json} :
    ItemsWellFormed items ↔ ∀ v ∈ items, v.WellFormed := by
  induction items with
  | nil => simp [ItemsWellFormed]
  | cons v rest ih => simp only [ItemsWellFormed, ih, List.forall_mem_cons]

theorem fieldsWellFormed_iff {fields : List (String × Json)} :
    FieldsWellFormed fields ↔ ∀ f ∈ fields, f.2.WellFormed := by
  induction fields with
  | nil => simp [FieldsWellFormed]
  | cons f rest ih =>
    obtain ⟨name, v⟩ := f
    simp only [FieldsWellFormed, ih, List.forall_mem_cons]

theorem WellFormed.sorted {fields : List (String × Json)} (h : (object fields).WellFormed) :
    Fields.Sorted fields := by
  rw [WellFormed] at h
  exact h.1

theorem WellFormed.of_mem_fields {fields : List (String × Json)} (h : (object fields).WellFormed)
    {f : String × Json} (hf : f ∈ fields) : f.2.WellFormed := by
  rw [WellFormed, fieldsWellFormed_iff] at h
  exact h.2 f hf

theorem WellFormed.of_mem_items {items : List Json} (h : (array items).WellFormed) {v : Json}
    (hv : v ∈ items) : v.WellFormed := by
  rw [WellFormed, itemsWellFormed_iff] at h
  exact h v hv

/-- What an object holds under a name is well-formed. -/
theorem WellFormed.of_get? {fields : List (String × Json)} (h : (object fields).WellFormed)
    {name : String} {v : Json} (hv : Fields.get? name fields = some v) : v.WellFormed :=
  h.of_mem_fields ((Fields.get?_eq_some_iff h.sorted.nodup).1 hv)

/-- Fields of any order make a well-formed object. -/
theorem WellFormed.ofFields {entries : List (String × Json)} (h : FieldsWellFormed entries) :
    (Json.ofFields entries).WellFormed := by
  rw [fieldsWellFormed_iff] at h
  rw [Json.ofFields, WellFormed, fieldsWellFormed_iff]
  exact ⟨Fields.sorted_ofList entries, fun f hf => h f (Fields.mem_of_mem_ofList hf)⟩

end Json

end AuthGate
