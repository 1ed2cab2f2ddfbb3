import AuthGate.Proofs.Struct.Wire
import AuthGate.Struct.Json

set_option autoImplicit false

/-! # The order of the names in a struct

The names of a struct come in no particular order, at any depth. Structs that differ in it fit alike
(`StructValue.Reorders.fits`) and, if a name occurs once in them, are the same document
(`Struct.toJson_eq_of_reorders`). -/

namespace AuthGate

/-! ## Reordering -/

mutual

/-- The same value, with the names of its structs in another order. -/
inductive StructValue.Reorders : StructValue → StructValue → Prop
  | refl (v : StructValue) : StructValue.Reorders v v
  | list {items items' : List StructValue} (h : StructValue.ItemsReorder items items') :
    StructValue.Reorders (.list items) (.list items')
  | struct {fields fields' fields'' : List (String × StructValue)}
    (h : StructValue.FieldsReorder fields fields') (hperm : fields'.Perm fields'') :
    StructValue.Reorders (.struct fields) (.struct fields'')

/-- The same values one by one. -/
inductive StructValue.ItemsReorder : List StructValue → List StructValue → Prop
  | nil : StructValue.ItemsReorder [] []
  | cons {v v' : StructValue} {rest rest' : List StructValue} (hv : StructValue.Reorders v v')
    (hrest : StructValue.ItemsReorder rest rest') :
    StructValue.ItemsReorder (v :: rest) (v' :: rest')

/-- The same values one by one under the same names. -/
inductive StructValue.FieldsReorder :
    List (String × StructValue) → List (String × StructValue) → Prop
  | nil : StructValue.FieldsReorder [] []
  | cons {name : String} {v v' : StructValue} {rest rest' : List (String × StructValue)}
    (hv : StructValue.Reorders v v') (hrest : StructValue.FieldsReorder rest rest') :
    StructValue.FieldsReorder ((name, v) :: rest) ((name, v') :: rest')

end

/-- The same struct, with its names in another order at every depth. -/
def Struct.Reorders (s s' : Struct) : Prop :=
  ∃ fields, StructValue.FieldsReorder s fields ∧ fields.Perm s'

theorem StructValue.FieldsReorder.names_eq {fields fields' : Struct}
    (h : StructValue.FieldsReorder fields fields') : fields'.map (·.1) = fields.map (·.1) := by
  induction fields generalizing fields' with
  | nil =>
    cases h
    rfl
  | cons f rest ih =>
    cases h with
    | cons hv hrest => rw [List.map_cons, List.map_cons, ih hrest]

/-! ## What fits -/

theorem StructValue.fieldsFit_iff {fields : Struct} {levels : Nat} :
    StructValue.FieldsFit fields levels ↔
      ∀ f ∈ fields, 1 ≤ levels ∧ (f.2 = .unset ∨ f.2.Fits (levels - 1)) := by
  induction fields with
  | nil => simp [StructValue.FieldsFit]
  | cons f rest ih =>
    obtain ⟨name, v⟩ := f
    simp only [StructValue.FieldsFit, ih, List.forall_mem_cons, and_assoc]

/-- Names and values that fit, in another order. -/
theorem StructValue.fieldsFit_of_perm {fields fields' : Struct} {levels : Nat}
    (hperm : fields.Perm fields') (h : StructValue.FieldsFit fields levels) :
    StructValue.FieldsFit fields' levels := by
  rw [fieldsFit_iff] at h ⊢
  exact fun f hf => h f (hperm.mem_iff.2 hf)

mutual

theorem StructValue.Reorders.fits {v v' : StructValue} (h : v.Reorders v') {levels : Nat}
    (hv : v.Fits levels) : v'.Fits levels := by
  cases h with
  | refl => exact hv
  | list h =>
    rw [StructValue.Fits] at hv ⊢
    exact ⟨hv.1, h.fits hv.2⟩
  | struct h hperm =>
    rw [StructValue.Fits] at hv ⊢
    obtain ⟨hlevels, hnodup, hfields⟩ := hv
    refine ⟨hlevels, ?_, fieldsFit_of_perm hperm (h.fits hfields)⟩
    rw [← h.names_eq] at hnodup
    exact (hperm.map (·.1)).nodup_iff.1 hnodup

theorem StructValue.ItemsReorder.fits {items items' : List StructValue}
    (h : StructValue.ItemsReorder items items') {levels : Nat}
    (hitems : StructValue.ItemsFit items levels) : StructValue.ItemsFit items' levels := by
  cases h with
  | nil => exact hitems
  | cons hv hrest =>
    rw [StructValue.ItemsFit] at hitems ⊢
    exact ⟨hv.fits hitems.1, hrest.fits hitems.2⟩

theorem StructValue.FieldsReorder.fits {fields fields' : List (String × StructValue)}
    (h : StructValue.FieldsReorder fields fields') {levels : Nat}
    (hfields : StructValue.FieldsFit fields levels) : StructValue.FieldsFit fields' levels := by
  cases h with
  | nil => exact hfields
  | cons hv hrest =>
    rw [StructValue.FieldsFit] at hfields ⊢
    obtain ⟨hlevels, hunset | hfits, hothers⟩ := hfields
    · subst hunset
      cases hv
      exact ⟨hlevels, .inl rfl, hrest.fits hothers⟩
    · exact ⟨hlevels, .inr (hv.fits hfits), hrest.fits hothers⟩

end

theorem Struct.Reorders.fits {s s' : Struct} (h : s.Reorders s') {levels : Nat}
    (hs : s.Fits levels) : s'.Fits levels := by
  obtain ⟨fields, hfields, hperm⟩ := h
  obtain ⟨hlevels, hnodup, hfit⟩ := hs
  refine ⟨hlevels, ?_, StructValue.fieldsFit_of_perm hperm (hfields.fits hfit)⟩
  rw [← hfields.names_eq] at hnodup
  exact (hperm.map (·.1)).nodup_iff.1 hnodup

/-! ## Sorting is reordering -/

mutual

theorem StructValue.reorders_sorted (v : StructValue) {levels : Nat} (h : v.Fits levels) :
    v.Reorders v.sorted := by
  cases v with
  | list items =>
    rw [StructValue.Fits] at h
    rw [sorted]
    exact .list (itemsReorder_sorted items h.2)
  | struct fields =>
    rw [StructValue.Fits] at h
    obtain ⟨-, hnodup, hfields⟩ := h
    have hreorder := fieldsReorder_sorted fields hfields
    rw [sorted]
    rw [← hreorder.names_eq] at hnodup
    exact .struct hreorder (Fields.perm_ofList hnodup).symm
  | _ =>
    simp only [sorted]
    exact .refl _

theorem StructValue.itemsReorder_sorted (items : List StructValue) {levels : Nat}
    (h : ItemsFit items levels) : ItemsReorder items (sortedItems items) := by
  cases items with
  | nil =>
    rw [sortedItems]
    exact .nil
  | cons v rest =>
    rw [ItemsFit] at h
    rw [sortedItems]
    exact .cons (reorders_sorted v h.1) (itemsReorder_sorted rest h.2)

theorem StructValue.fieldsReorder_sorted (fields : List (String × StructValue)) {levels : Nat}
    (h : FieldsFit fields levels) : FieldsReorder fields (sortedFields fields) := by
  cases fields with
  | nil =>
    rw [sortedFields]
    exact .nil
  | cons f rest =>
    obtain ⟨name, v⟩ := f
    rw [FieldsFit] at h
    obtain ⟨-, hunset | hfits, hothers⟩ := h
    · simp only [sortedFields, hunset, sorted]
      exact .cons (.refl _) (fieldsReorder_sorted rest hothers)
    · rw [sortedFields]
      exact .cons (reorders_sorted v hfits) (fieldsReorder_sorted rest hothers)

end

theorem Struct.reorders_sorted {s : Struct} {levels : Nat} (h : s.Fits levels) :
    s.Reorders s.sorted := by
  obtain ⟨-, hnodup, hfields⟩ := h
  have hreorder := StructValue.fieldsReorder_sorted s hfields
  rw [← hreorder.names_eq] at hnodup
  exact ⟨_, hreorder, (Fields.perm_ofList hnodup).symm⟩

/-! ## Names that occur once -/

mutual

/-- A value in whose structs a name occurs once, at every depth. -/
def StructValue.Distinct : StructValue → Prop
  | .list items => StructValue.ItemsDistinct items
  | .struct fields => (fields.map (·.1)).Nodup ∧ StructValue.FieldsDistinct fields
  | _ => True

/-- Values in whose structs a name occurs once. -/
def StructValue.ItemsDistinct : List StructValue → Prop
  | [] => True
  | v :: vs => v.Distinct ∧ StructValue.ItemsDistinct vs

/-- Named values in whose structs a name occurs once. -/
def StructValue.FieldsDistinct : List (String × StructValue) → Prop
  | [] => True
  | (_, v) :: rest => v.Distinct ∧ StructValue.FieldsDistinct rest

end

/-- A struct in which a name occurs once, at every depth. -/
def Struct.Distinct (s : Struct) : Prop := (s.map (·.1)).Nodup ∧ StructValue.FieldsDistinct s

mutual

theorem StructValue.Fits.distinct {v : StructValue} {levels : Nat} (h : v.Fits levels) :
    v.Distinct := by
  cases v with
  | list items =>
    rw [StructValue.Fits] at h
    rw [StructValue.Distinct]
    exact itemsDistinct_of_itemsFit h.2
  | struct fields =>
    rw [StructValue.Fits] at h
    rw [StructValue.Distinct]
    exact ⟨h.2.1, fieldsDistinct_of_fieldsFit h.2.2⟩
  | _ => simp only [StructValue.Distinct]

theorem StructValue.itemsDistinct_of_itemsFit {items : List StructValue} {levels : Nat}
    (h : StructValue.ItemsFit items levels) : StructValue.ItemsDistinct items := by
  cases items with
  | nil => rw [StructValue.ItemsDistinct]; trivial
  | cons v rest =>
    rw [StructValue.ItemsFit] at h
    rw [StructValue.ItemsDistinct]
    exact ⟨h.1.distinct, itemsDistinct_of_itemsFit h.2⟩

theorem StructValue.fieldsDistinct_of_fieldsFit {fields : List (String × StructValue)}
    {levels : Nat} (h : StructValue.FieldsFit fields levels) :
    StructValue.FieldsDistinct fields := by
  cases fields with
  | nil => rw [StructValue.FieldsDistinct]; trivial
  | cons f rest =>
    obtain ⟨name, v⟩ := f
    rw [StructValue.FieldsFit] at h
    obtain ⟨-, hunset | hfits, hothers⟩ := h
    · simp only [StructValue.FieldsDistinct, hunset, StructValue.Distinct, true_and]
      exact fieldsDistinct_of_fieldsFit hothers
    · rw [StructValue.FieldsDistinct]
      exact ⟨hfits.distinct, fieldsDistinct_of_fieldsFit hothers⟩

end

theorem Struct.Fits.distinct {s : Struct} {levels : Nat} (h : s.Fits levels) : s.Distinct :=
  ⟨h.2.1, StructValue.fieldsDistinct_of_fieldsFit h.2.2⟩

/-! ## Documents -/

theorem StructValue.fieldsToJson_eq_mapValues (fields : Struct) :
    StructValue.fieldsToJson fields = Fields.mapValues StructValue.toJson fields := by
  induction fields with
  | nil => rw [StructValue.fieldsToJson]; rfl
  | cons f rest ih =>
    obtain ⟨name, v⟩ := f
    rw [StructValue.fieldsToJson, ih]
    rfl

/-- Fields with distinct names are the same object in every order. -/
theorem Json.ofFields_eq_of_perm {fields fields' : List (String × Json)}
    (hperm : fields.Perm fields') (h : (fields.map (·.1)).Nodup) :
    Json.ofFields fields = Json.ofFields fields' := by
  rw [Json.ofFields, Json.ofFields, Fields.ofList_eq_of_perm hperm h]

/-- Named values in another order, each the same document as before. -/
theorem StructValue.ofFields_fieldsToJson_eq {fields fields' fields'' : Struct}
    (hnodup : (fields.map (·.1)).Nodup)
    (h : StructValue.fieldsToJson fields = StructValue.fieldsToJson fields')
    (hperm : fields'.Perm fields'') :
    Json.ofFields (StructValue.fieldsToJson fields) =
      Json.ofFields (StructValue.fieldsToJson fields'') := by
  have hnames : (StructValue.fieldsToJson fields').map (·.1) = fields.map (·.1) := by
    rw [← h, fieldsToJson_eq_mapValues, Fields.names_mapValues]
  rw [h, fieldsToJson_eq_mapValues fields', fieldsToJson_eq_mapValues fields'']
  rw [fieldsToJson_eq_mapValues] at hnames
  exact Json.ofFields_eq_of_perm (hperm.map _) (hnames ▸ hnodup)

mutual

theorem StructValue.Reorders.toJson_eq {v v' : StructValue} (h : v.Reorders v')
    (hv : v.Distinct) : v.toJson = v'.toJson := by
  cases h with
  | refl => rfl
  | list h =>
    rw [StructValue.Distinct] at hv
    rw [StructValue.toJson, StructValue.toJson, h.itemsToJson_eq hv]
  | struct h hperm =>
    rw [StructValue.Distinct] at hv
    rw [StructValue.toJson, StructValue.toJson]
    exact ofFields_fieldsToJson_eq hv.1 (h.fieldsToJson_eq hv.2) hperm

theorem StructValue.ItemsReorder.itemsToJson_eq {items items' : List StructValue}
    (h : StructValue.ItemsReorder items items') (hitems : StructValue.ItemsDistinct items) :
    StructValue.itemsToJson items = StructValue.itemsToJson items' := by
  cases h with
  | nil => rfl
  | cons hv hrest =>
    rw [StructValue.ItemsDistinct] at hitems
    rw [StructValue.itemsToJson, StructValue.itemsToJson, hv.toJson_eq hitems.1,
      hrest.itemsToJson_eq hitems.2]

theorem StructValue.FieldsReorder.fieldsToJson_eq {fields fields' : List (String × StructValue)}
    (h : StructValue.FieldsReorder fields fields') (hfields : StructValue.FieldsDistinct fields) :
    StructValue.fieldsToJson fields = StructValue.fieldsToJson fields' := by
  cases h with
  | nil => rfl
  | cons hv hrest =>
    rw [StructValue.FieldsDistinct] at hfields
    rw [StructValue.fieldsToJson, StructValue.fieldsToJson, hv.toJson_eq hfields.1,
      hrest.fieldsToJson_eq hfields.2]

end

/-- The order of names does not show in the document of a struct in which they occur once. -/
theorem Struct.toJson_eq_of_reorders {s s' : Struct} (h : s.Reorders s') (hs : s.Distinct) :
    s.toJson = s'.toJson := by
  obtain ⟨fields, hfields, hperm⟩ := h
  rw [Struct.toJson, Struct.toJson]
  exact StructValue.ofFields_fieldsToJson_eq hs.1 (hfields.fieldsToJson_eq hs.2) hperm

end AuthGate
