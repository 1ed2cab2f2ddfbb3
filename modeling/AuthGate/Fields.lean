set_option autoImplicit false

/-! # Named fields

Two kinds of association list by name. An object's fields are kept sorted by name, so that two
objects with the same fields are equal and are written alike; a map received in some order keeps
that order. In both a name occurs once, and of two values given for it the later one stays. -/

namespace AuthGate

/-- Whether a name comes before another: by code points, which is also by UTF-8 bytes. -/
def nameBefore (a b : String) : Bool := decide (a < b)

namespace Fields

variable {α β : Type}

/-- The value of a name. -/
def get? (name : String) : List (String × α) → Option α
  | [] => none
  | (n, v) :: rest => if n = name then some v else get? name rest

/-- A name set in sorted fields. -/
def insert (name : String) (value : α) : List (String × α) → List (String × α)
  | [] => [(name, value)]
  | (n, v) :: rest =>
    if n = name then (name, value) :: rest
    else if nameBefore name n then (name, value) :: (n, v) :: rest
    else (n, v) :: insert name value rest

/-- Sorted fields from a list in any order; the last value of a name stays. -/
def ofList (entries : List (String × α)) : List (String × α) :=
  entries.foldl (fun fields (n, v) => insert n v fields) []

/-- A name set in a map that keeps its order; a new name comes last. -/
def put (name : String) (value : α) : List (String × α) → List (String × α)
  | [] => [(name, value)]
  | (n, v) :: rest =>
    if n = name then (name, value) :: rest else (n, v) :: put name value rest

/-- The map without a name. -/
def erase (name : String) (fields : List (String × α)) : List (String × α) :=
  fields.filter fun (n, _) => n != name

/-- Whether the name has a value. -/
def contains (name : String) (fields : List (String × α)) : Bool := (get? name fields).isSome

/-- The map with every value changed. -/
def mapValues (f : α → β) (fields : List (String × α)) : List (String × β) :=
  fields.map fun (n, v) => (n, f v)

/-- One value more at the end of those a name has in sorted fields of lists. -/
def append (name : String) (value : α) (fields : List (String × List α)) :
    List (String × List α) :=
  insert name ((get? name fields).getD [] ++ [value]) fields

/-! ## Look-up -/

theorem get?_insert (name other : String) (value : α) (fields : List (String × α)) :
    get? other (insert name value fields) =
      if name = other then some value else get? other fields := by
  induction fields with
  | nil => simp [insert, get?]
  | cons f rest ih =>
    obtain ⟨n, v⟩ := f
    simp only [insert]
    split
    · next hn =>
      subst hn
      by_cases ho : n = other <;> simp [get?, ho]
    · next hn =>
      split
      · by_cases ho : name = other <;> simp [get?, ho]
      · by_cases ho : n = other
        · have hno : name ≠ other := fun h => hn (ho.trans h.symm)
          simp [get?, ho, hno]
        · simp [get?, ho, ih]

theorem get?_append (name other : String) (value : α) (fields : List (String × List α)) :
    get? other (append name value fields) =
      if name = other then some ((get? name fields).getD [] ++ [value]) else get? other fields :=
  get?_insert name other _ fields

theorem get?_mapValues (f : α → β) (name : String) (fields : List (String × α)) :
    get? name (mapValues f fields) = (get? name fields).map f := by
  induction fields with
  | nil => rfl
  | cons field rest ih =>
    obtain ⟨n, v⟩ := field
    rw [mapValues] at ih
    by_cases h : n = name <;> simp [mapValues, get?, h, ih]

theorem length_insert_le (name : String) (value : α) (fields : List (String × α)) :
    (insert name value fields).length ≤ fields.length + 1 := by
  induction fields with
  | nil => simp [insert]
  | cons f rest ih =>
    obtain ⟨n, v⟩ := f
    simp only [insert]
    split
    · simp
    · split
      · simp
      · simpa using ih

theorem get?_eq_none_iff {name : String} {fields : List (String × α)} :
    get? name fields = none ↔ name ∉ fields.map (·.1) := by
  induction fields with
  | nil => simp [get?]
  | cons f rest ih =>
    obtain ⟨n, v⟩ := f
    by_cases hn : n = name
    · simp [get?, hn]
    · have hne : name ≠ n := Ne.symm hn
      simp only [get?, hn, if_false, ih, List.map_cons, List.mem_cons, hne, false_or]

theorem mem_names_erase {name other : String} {fields : List (String × α)} :
    other ∈ (erase name fields).map (·.1) ↔ other ≠ name ∧ other ∈ fields.map (·.1) := by
  simp only [erase, List.mem_map, List.mem_filter, bne_iff_ne]
  constructor
  · rintro ⟨f, ⟨hf, hne⟩, rfl⟩
    exact ⟨hne, f, hf, rfl⟩
  · rintro ⟨hne, f, hf, rfl⟩
    exact ⟨f, ⟨hf, hne⟩, rfl⟩

theorem get?_erase (name other : String) (fields : List (String × α)) :
    get? other (erase name fields) = if name = other then none else get? other fields := by
  induction fields with
  | nil => simp [erase, get?]
  | cons f rest ih =>
    obtain ⟨n, v⟩ := f
    rw [erase] at ih
    by_cases hn : n = name
    · subst hn
      have hdrop : erase n ((n, v) :: rest) = rest.filter fun f => f.1 != n := by simp [erase]
      rw [hdrop, ih]
      by_cases ho : n = other <;> simp [get?, ho]
    · have hkeep : erase name ((n, v) :: rest) = (n, v) :: rest.filter fun f => f.1 != name := by
        simp [erase, hn]
      rw [hkeep]
      by_cases ho : n = other
      · have hno : name ≠ other := fun h => hn (ho.trans h.symm)
        simp [get?, ho, hno]
      · simp [get?, ho, ih]

/-- Fields in which each name occurs once, inserted one by one. -/
theorem get?_foldl_insert (other : String) {entries : List (String × α)}
    (h : (entries.map (·.1)).Nodup) (fields : List (String × α)) :
    get? other (entries.foldl (fun fields (n, v) => insert n v fields) fields) =
      (get? other entries).or (get? other fields) := by
  induction entries generalizing fields with
  | nil => rfl
  | cons e rest ih =>
    obtain ⟨n, v⟩ := e
    obtain ⟨hn, hrest⟩ := List.nodup_cons.1 h
    rw [List.foldl_cons, ih hrest, get?_insert]
    by_cases ho : n = other
    · subst ho
      simp [get?, get?_eq_none_iff.2 hn]
    · simp [get?, ho]

theorem mapValues_insert (f : α → β) (name : String) (value : α) (fields : List (String × α)) :
    mapValues f (insert name value fields) = insert name (f value) (mapValues f fields) := by
  induction fields with
  | nil => rfl
  | cons field rest ih =>
    obtain ⟨n, v⟩ := field
    rw [mapValues, mapValues] at ih
    simp only [insert, mapValues, List.map_cons]
    split
    · rfl
    · split
      · rfl
      · rw [List.map_cons, ih]

@[simp] theorem names_mapValues (f : α → β) (fields : List (String × α)) :
    (mapValues f fields).map (·.1) = fields.map (·.1) := by
  simp [mapValues]

/-! ## Order -/

/-- The names come in ascending order, each once. -/
def Sorted (fields : List (String × α)) : Prop := (fields.map (·.1)).Pairwise (· < ·)

theorem sorted_nil : Sorted ([] : List (String × α)) := List.Pairwise.nil

theorem mem_names_insert {name other : String} {value : α} {fields : List (String × α)} :
    other ∈ (insert name value fields).map (·.1) ↔ other = name ∨ other ∈ fields.map (·.1) := by
  induction fields with
  | nil => simp [insert]
  | cons f rest ih =>
    obtain ⟨n, v⟩ := f
    simp only [insert]
    split
    · next hn => simp [hn]
    · split
      · simp
      · simp only [List.map_cons, List.mem_cons, ih]
        exact or_left_comm

theorem Sorted.insert {fields : List (String × α)} (h : Sorted fields) (name : String)
    (value : α) : Sorted (Fields.insert name value fields) := by
  induction fields with
  | nil => simp [Sorted, Fields.insert]
  | cons f rest ih =>
    obtain ⟨n, v⟩ := f
    obtain ⟨hn, hrest⟩ := List.pairwise_cons.1 h
    simp only [Fields.insert]
    split
    · next he => exact List.pairwise_cons.2 ⟨he ▸ hn, hrest⟩
    · next hne =>
      split
      · next hb =>
        have hlt : name < n := of_decide_eq_true hb
        refine List.pairwise_cons.2 ⟨fun m hm => ?_, h⟩
        rcases List.mem_cons.1 hm with rfl | hm
        · exact hlt
        · exact String.lt_trans hlt (hn m hm)
      · next hb =>
        have hle : n ≤ name := fun hlt => hb (decide_eq_true hlt)
        have hlt : n < name := by
          rcases Decidable.em (n < name) with hlt | hge
          · exact hlt
          · exact absurd (String.le_antisymm hle hge) hne
        refine List.pairwise_cons.2 ⟨fun m hm => ?_, ih hrest⟩
        rcases mem_names_insert.1 hm with rfl | hm
        · exact hlt
        · exact hn m hm

theorem Sorted.append {fields : List (String × List α)} (h : Sorted fields) (name : String)
    (value : α) : Sorted (Fields.append name value fields) :=
  h.insert name _

theorem Sorted.mapValues {fields : List (String × α)} (h : Sorted fields) (f : α → β) :
    Sorted (Fields.mapValues f fields) := by
  rwa [Sorted, names_mapValues]

theorem Sorted.erase {fields : List (String × α)} (h : Sorted fields) (name : String) :
    Sorted (Fields.erase name fields) :=
  List.Pairwise.sublist (List.filter_sublist.map _) h

theorem Sorted.foldl_insert {fields : List (String × α)} (h : Sorted fields)
    (entries : List (String × α)) :
    Sorted (entries.foldl (fun fields (n, v) => Fields.insert n v fields) fields) := by
  induction entries generalizing fields with
  | nil => exact h
  | cons e rest ih => exact ih (h.insert e.1 e.2)

theorem sorted_ofList (entries : List (String × α)) : Sorted (ofList entries) :=
  sorted_nil.foldl_insert entries

theorem Sorted.nodup {fields : List (String × α)} (h : Sorted fields) :
    (fields.map (·.1)).Nodup := by
  apply List.Pairwise.imp _ h
  intro a b hab he
  exact String.lt_irrefl b (he ▸ hab)

/-! ## Sorting -/

theorem perm_insert {name : String} (value : α) {fields : List (String × α)}
    (h : name ∉ fields.map (·.1)) : (insert name value fields).Perm ((name, value) :: fields) := by
  induction fields with
  | nil => exact .refl _
  | cons f rest ih =>
    obtain ⟨n, v⟩ := f
    rw [List.map_cons, List.mem_cons, not_or] at h
    have hn : n ≠ name := fun he => h.1 he.symm
    rw [insert, if_neg hn]
    split
    · exact .refl _
    · exact ((ih h.2).cons (n, v)).trans (.swap _ _ _)

theorem perm_foldl_insert {entries : List (String × α)} (fields : List (String × α))
    (h : ((entries ++ fields).map (·.1)).Nodup) :
    (entries.foldl (fun fields (n, v) => insert n v fields) fields).Perm (entries ++ fields) := by
  induction entries generalizing fields with
  | nil => exact .refl _
  | cons e rest ih =>
    obtain ⟨n, v⟩ := e
    rw [List.cons_append, List.map_cons, List.nodup_cons] at h
    obtain ⟨hn, hrest⟩ := h
    have hfresh : n ∉ fields.map (·.1) := by
      rw [List.map_append, List.mem_append, not_or] at hn
      exact hn.2
    have hperm : (rest ++ insert n v fields).Perm ((n, v) :: (rest ++ fields)) :=
      ((perm_insert v hfresh).append_left rest).trans List.perm_middle
    have hnodup : ((rest ++ insert n v fields).map (·.1)).Nodup :=
      (hperm.map (·.1)).nodup_iff.2 (List.nodup_cons.2 ⟨hn, hrest⟩)
    exact (ih _ hnodup).trans hperm

theorem perm_ofList {entries : List (String × α)} (h : (entries.map (·.1)).Nodup) :
    (ofList entries).Perm entries := by
  have hperm := perm_foldl_insert [] (by rwa [List.append_nil])
  rwa [List.append_nil] at hperm

/-- There is one way to sort entries with distinct names. -/
theorem Sorted.ofList_eq {fields entries : List (String × α)} (h : Sorted fields)
    (hperm : fields.Perm entries) : ofList entries = fields := by
  have hnodup := (hperm.map (·.1)).nodup_iff.1 h.nodup
  have hanti (e e' : String × α) (_ : e ∈ ofList entries) (_ : e' ∈ fields) (hlt : e.1 < e'.1)
      (hgt : e'.1 < e.1) : e = e' := absurd hgt (String.lt_asymm hlt)
  exact List.Perm.eq_of_pairwise hanti (List.pairwise_map.1 (sorted_ofList entries))
    (List.pairwise_map.1 h) ((perm_ofList hnodup).trans hperm.symm)

theorem ofList_eq_of_perm {entries entries' : List (String × α)} (hperm : entries.Perm entries')
    (h : (entries.map (·.1)).Nodup) : ofList entries = ofList entries' :=
  ((sorted_ofList entries).ofList_eq ((perm_ofList h).trans hperm)).symm

end Fields

end AuthGate
