import AuthGate.Json.Basic
import Mathlib.Data.List.Nodup
import Mathlib.Data.List.Perm.Basic

set_option autoImplicit false

/-! # Documents of fields that may be missing

An object is often put together from fields with fixed names, some of which are left out. As long as
the names differ, the object tells of each field whether it is there and what it holds: looking it
up gives that (`Json.field?_ofParts`), and two such objects that are equal have equal fields
(`Json.ofParts_inj`). -/

namespace AuthGate

namespace Fields

variable {α : Type}

/-! ## Looking up -/

theorem get?_eq_some_iff {fields : List (String × α)} (h : (fields.map (·.1)).Nodup) {name : String}
    {value : α} : get? name fields = some value ↔ (name, value) ∈ fields := by
  induction fields with
  | nil => simp [get?]
  | cons f rest ih =>
    obtain ⟨n, v⟩ := f
    obtain ⟨hn, hrest⟩ := List.nodup_cons.1 h
    by_cases heq : n = name
    · subst heq
      have hother : (n, value) ∉ rest := fun hmem => hn (List.mem_map.2 ⟨_, hmem, rfl⟩)
      simp [get?, hother, eq_comm]
    · simp [get?, heq, ih hrest, Ne.symm heq]

/-- Sorted fields are known by what they hold. -/
theorem Sorted.ext {fields fields' : List (String × α)} (h : Sorted fields) (h' : Sorted fields')
    (heq : ∀ name, get? name fields = get? name fields') : fields = fields' := by
  have hperm : fields.Perm fields' := by
    rw [List.perm_ext_iff_of_nodup (h.nodup.of_map _) (h'.nodup.of_map _)]
    rintro ⟨name, value⟩
    rw [← get?_eq_some_iff h.nodup, ← get?_eq_some_iff h'.nodup, heq]
  exact (h.ofList_eq hperm).symm.trans (h'.ofList_eq (.refl _))

theorem get?_ofList {entries : List (String × α)} (h : (entries.map (·.1)).Nodup) (name : String) :
    get? name (ofList entries) = get? name entries := by
  rw [ofList, get?_foldl_insert name h]
  exact Option.or_none

theorem mem_of_mem_insert {f : String × α} {name : String} {value : α} {fields : List (String × α)}
    (h : f ∈ insert name value fields) : f = (name, value) ∨ f ∈ fields := by
  induction fields with
  | nil => exact .inl (List.mem_singleton.1 h)
  | cons g rest ih =>
    obtain ⟨n, v⟩ := g
    simp only [insert] at h
    split at h
    · exact (List.mem_cons.1 h).imp_right (List.mem_cons_of_mem _)
    · split at h
      · exact List.mem_cons.1 h
      · rcases List.mem_cons.1 h with rfl | hrest
        · exact .inr (List.mem_cons_self ..)
        · exact (ih hrest).imp_right (List.mem_cons_of_mem _)

/-- Nothing is in sorted entries that was not in the entries. -/
theorem mem_of_mem_ofList {f : String × α} {entries : List (String × α)} (h : f ∈ ofList entries) :
    f ∈ entries := by
  suffices hfold : ∀ fields : List (String × α),
      f ∈ entries.foldl (fun fields e => insert e.1 e.2 fields) fields → f ∈ fields ∨ f ∈ entries by
    exact (hfold [] h).resolve_left List.not_mem_nil
  clear h
  induction entries with
  | nil => exact fun _ h => .inl h
  | cons e rest ih =>
    intro fields h
    rcases ih _ h with hinsert | hrest
    · rcases mem_of_mem_insert hinsert with rfl | hfields
      · exact .inr (List.mem_cons_self ..)
      · exact .inl hfields
    · exact .inr (List.mem_cons_of_mem _ hrest)

/-- Entries under distinct names are the same, but for their order, if their fields are. -/
theorem perm_of_ofList_eq {entries entries' : List (String × α)} (h : (entries.map (·.1)).Nodup)
    (h' : (entries'.map (·.1)).Nodup) (heq : ofList entries = ofList entries') :
    entries.Perm entries' :=
  (perm_ofList h).symm.trans (heq ▸ perm_ofList h')

/-! ## Fields that may be missing -/

/-- The fields that are there. -/
def given (parts : List (String × Option α)) : List (String × α) :=
  parts.filterMap fun (name, value) => value.map (name, ·)

theorem given_cons (name : String) (value : Option α) (rest : List (String × Option α)) :
    given ((name, value) :: rest) = (value.map (name, ·)).toList ++ given rest := by
  cases value <;> rfl

theorem given_append (parts parts' : List (String × Option α)) :
    given (parts ++ parts') = given parts ++ given parts' :=
  List.filterMap_append

theorem names_given_sublist (parts : List (String × Option α)) :
    ((given parts).map (·.1)).Sublist (parts.map (·.1)) := by
  induction parts with
  | nil => exact .slnil
  | cons part rest ih =>
    obtain ⟨name, value⟩ := part
    cases value with
    | none => exact ih.cons _
    | some v => exact ih.cons_cons _

variable {parts parts' : List (String × Option α)}

theorem nodup_names_given (h : (parts.map (·.1)).Nodup) : ((given parts).map (·.1)).Nodup :=
  h.sublist (names_given_sublist parts)

theorem get?_given_of_notMem {name : String} (h : name ∉ parts.map (·.1)) :
    get? name (given parts) = none :=
  get?_eq_none_iff.2 fun hmem => h ((names_given_sublist parts).subset hmem)

theorem get?_given (h : (parts.map (·.1)).Nodup) (name : String) :
    get? name (given parts) = (get? name parts).join := by
  induction parts with
  | nil => rfl
  | cons part rest ih =>
    obtain ⟨n, value⟩ := part
    obtain ⟨hn, hrest⟩ := List.nodup_cons.1 h
    by_cases heq : n = name
    · subst heq
      cases value with
      | none => simpa [given_cons, get?] using get?_given_of_notMem hn
      | some v => simp [given_cons, get?]
    · cases value <;> simp [given_cons, get?, heq, ih hrest]

/-- A field is taken away from those that may be missing as it is from those that are there. -/
theorem erase_ofList_given (name : String) (h : (parts.map (·.1)).Nodup) :
    erase name (ofList (given parts)) = ofList (given (erase name parts)) := by
  have herase : ((erase name parts).map (·.1)).Nodup := h.sublist (List.filter_sublist.map _)
  refine ((sorted_ofList _).erase name).ext (sorted_ofList _) fun other => ?_
  rw [get?_erase, get?_ofList (nodup_names_given h), get?_ofList (nodup_names_given herase),
    get?_given h, get?_given herase, get?_erase]
  split <;> rfl

/-- Fields that may be missing, under the same distinct names, are the same if those that are there
    hold the same. -/
theorem parts_eq_of_get?_given (hnames : parts.map (·.1) = parts'.map (·.1))
    (h : (parts.map (·.1)).Nodup)
    (heq : ∀ name, get? name (given parts) = get? name (given parts')) : parts = parts' := by
  have h' := hnames ▸ h
  have hjoin (name : String) : (get? name parts).join = (get? name parts').join := by
    rw [← get?_given h, ← get?_given h', heq]
  clear heq
  induction parts generalizing parts' with
  | nil => exact (List.map_eq_nil_iff.1 hnames.symm).symm
  | cons part rest ih =>
    cases parts' with
    | nil => cases hnames
    | cons part' rest' =>
      obtain ⟨name, value⟩ := part
      obtain ⟨name', value'⟩ := part'
      obtain ⟨rfl, hrest⟩ := List.cons.inj hnames
      obtain ⟨hn, hnodup⟩ := List.nodup_cons.1 h
      obtain ⟨hn', hnodup'⟩ := List.nodup_cons.1 h'
      have hvalue : value = value' := by simpa [get?] using hjoin name
      rw [hvalue, ih hrest hnodup hnodup' fun other => ?_]
      -- the first name is none of the others
      by_cases hother : name = other
      · subst hother
        rw [get?_eq_none_iff.2 hn, get?_eq_none_iff.2 hn']
      · simpa [get?, hother] using hjoin other

end Fields

namespace Json

/-- The object of the fields that are there. -/
def ofParts (parts : List (String × Option Json)) : Json := .ofFields (Fields.given parts)

variable {parts parts' : List (String × Option Json)}

theorem field?_ofParts (h : (parts.map (·.1)).Nodup) (name : String) :
    (ofParts parts).field? name = (Fields.get? name parts).join := by
  rw [← Fields.get?_given h]
  exact Fields.get?_ofList (Fields.nodup_names_given h) name

/-- Objects of fields with the same distinct names tell what the fields are. -/
theorem ofParts_inj (hnames : parts.map (·.1) = parts'.map (·.1)) (h : (parts.map (·.1)).Nodup)
    (heq : ofParts parts = ofParts parts') : parts = parts' := by
  refine Fields.parts_eq_of_get?_given hnames h fun name => ?_
  rw [Fields.get?_given h, Fields.get?_given (hnames ▸ h), ← field?_ofParts h,
    ← field?_ofParts (hnames ▸ h), heq]

/-- A map of texts is known from its document, but for the order of its entries. -/
theorem perm_of_ofTexts_eq {entries entries' : List (String × String)}
    (h : (entries.map (·.1)).Nodup) (h' : (entries'.map (·.1)).Nodup)
    (heq : ofTexts entries = ofTexts entries') : entries.Perm entries' := by
  have hperm := Fields.perm_of_ofList_eq (by rwa [Fields.names_mapValues])
    (by rwa [Fields.names_mapValues]) (Json.object.inj heq)
  refine (List.map_perm_map_iff ?_).1 hperm
  rintro ⟨name, text⟩ ⟨name', text'⟩ hentry
  obtain ⟨rfl, htext⟩ := Prod.mk.inj hentry
  rw [Json.string.inj htext]

end Json

end AuthGate
