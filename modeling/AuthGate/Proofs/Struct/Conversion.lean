import AuthGate.Proofs.Decimal.Nearest
import AuthGate.Proofs.Json.WellFormed
import AuthGate.Proofs.Struct.Order

set_option autoImplicit false

/-! # Documents and structs are converted into each other

An object that is made a struct and back is the same but that its numbers have become the nearest
doubles; a struct that is made an object and back is the same but that what an object cannot say has
become null, and that its names are sorted. The two together are `Struct.conversions_inverse`. -/

namespace AuthGate

/-! ## Rounded documents -/

/-- The double nearest to a number; a double is itself. -/
def Number.Rounds : Number → Double → Prop
  | .whole w, d => d.IsNearest w.value
  | .double d', d => d = d'

theorem Number.rounds_toDouble (n : Number) : n.Rounds n.toDouble := by
  cases n with
  | double d => rfl
  | whole w =>
    refine Double.isNearest_ofInt ?_
    obtain ⟨hlow, hhigh⟩ := w.in_range
    have hsize : w.value.natAbs < 2 ^ 65 := by omega
    by_cases hzero : w.value.natAbs = 0
    · rw [hzero]
      decide
    · have := (Nat.log2_lt hzero).2 hsize
      omega

theorem Number.Rounds.isFinite {n : Number} {d : Double} (h : n.Rounds d) (hn : n.IsFinite) :
    d.isFinite = true := by
  cases n with
  | whole w => exact Double.IsNearest.finite h
  | double d' => exact (show d = d' from h) ▸ hn

mutual

/-- The same document with every number replaced by the nearest double. -/
inductive Json.Rounds : Json → Json → Prop
  | null : Json.Rounds .null .null
  | bool (b : Bool) : Json.Rounds (.bool b) (.bool b)
  | number {n : Number} {d : Double} (h : n.Rounds d) :
    Json.Rounds (.number n) (.number (.double d))
  | string (s : String) : Json.Rounds (.string s) (.string s)
  | array {items items' : List Json} (h : Json.ItemsRound items items') :
    Json.Rounds (.array items) (.array items')
  | object {fields fields' : List (String × Json)} (h : Json.FieldsRound fields fields') :
    Json.Rounds (.object fields) (.object fields')

/-- The same documents one by one. -/
inductive Json.ItemsRound : List Json → List Json → Prop
  | nil : Json.ItemsRound [] []
  | cons {v v' : Json} {rest rest' : List Json} (hv : Json.Rounds v v')
    (hrest : Json.ItemsRound rest rest') : Json.ItemsRound (v :: rest) (v' :: rest')

/-- The same documents one by one under the same names. -/
inductive Json.FieldsRound : List (String × Json) → List (String × Json) → Prop
  | nil : Json.FieldsRound [] []
  | cons {name : String} {v v' : Json} {rest rest' : List (String × Json)} (hv : Json.Rounds v v')
    (hrest : Json.FieldsRound rest rest') :
    Json.FieldsRound ((name, v) :: rest) ((name, v') :: rest')

end

mutual

/-- The numbers of a document, at every depth. -/
def Json.numbers : Json → List Number
  | .number n => [n]
  | .array items => Json.itemsNumbers items
  | .object fields => Json.fieldsNumbers fields
  | _ => []

/-- The numbers of documents. -/
def Json.itemsNumbers : List Json → List Number
  | [] => []
  | v :: vs => v.numbers ++ Json.itemsNumbers vs

/-- The numbers of named documents. -/
def Json.fieldsNumbers : List (String × Json) → List Number
  | [] => []
  | (_, v) :: rest => v.numbers ++ Json.fieldsNumbers rest

end

/-- Numbers that are doubles already. -/
def AreDoubles (ns : List Number) : Prop := ∀ n ∈ ns, ∃ d, n = .double d

theorem areDoubles_append {ms ns : List Number} :
    AreDoubles (ms ++ ns) ↔ AreDoubles ms ∧ AreDoubles ns :=
  List.forall_mem_append

theorem Json.FieldsRound.names_eq {fields fields' : List (String × Json)}
    (h : Json.FieldsRound fields fields') : fields'.map (·.1) = fields.map (·.1) := by
  induction fields generalizing fields' with
  | nil =>
    cases h
    rfl
  | cons f rest ih =>
    cases h with
    | cons hv hrest => rw [List.map_cons, List.map_cons, ih hrest]

mutual

/-- A document of doubles is rounded to itself. -/
theorem Json.Rounds.eq_self {v v' : Json} (h : v.Rounds v') (hv : AreDoubles v.numbers) : v' = v := by
  cases h with
  | null | bool | string => rfl
  | number h =>
    rw [Json.numbers] at hv
    obtain ⟨d', rfl⟩ := hv _ (List.mem_singleton_self _)
    rw [show _ = d' from h]
  | array h =>
    rw [Json.numbers] at hv
    rw [h.eq_self hv]
  | object h =>
    rw [Json.numbers] at hv
    rw [h.eq_self hv]

theorem Json.ItemsRound.eq_self {items items' : List Json} (h : Json.ItemsRound items items')
    (hitems : AreDoubles (Json.itemsNumbers items)) : items' = items := by
  cases h with
  | nil => rfl
  | cons hv hrest =>
    rw [Json.itemsNumbers, areDoubles_append] at hitems
    rw [hv.eq_self hitems.1, hrest.eq_self hitems.2]

theorem Json.FieldsRound.eq_self {fields fields' : List (String × Json)}
    (h : Json.FieldsRound fields fields') (hfields : AreDoubles (Json.fieldsNumbers fields)) :
    fields' = fields := by
  cases h with
  | nil => rfl
  | cons hv hrest =>
    rw [Json.fieldsNumbers, areDoubles_append] at hfields
    rw [hv.eq_self hfields.1, hrest.eq_self hfields.2]

end

mutual

/-- A rounded document is one of doubles. -/
theorem Json.Rounds.areDoubles {v v' : Json} (h : v.Rounds v') : AreDoubles v'.numbers := by
  cases h with
  | null | bool | string =>
    rw [Json.numbers]
    · exact fun _ hn => absurd hn List.not_mem_nil
    all_goals simp
  | number h =>
    rw [Json.numbers]
    exact fun n hn => ⟨_, List.mem_singleton.1 hn⟩
  | array h =>
    rw [Json.numbers]
    exact h.areDoubles
  | object h =>
    rw [Json.numbers]
    exact h.areDoubles

theorem Json.ItemsRound.areDoubles {items items' : List Json} (h : Json.ItemsRound items items') :
    AreDoubles (Json.itemsNumbers items') := by
  cases h with
  | nil =>
    rw [Json.itemsNumbers]
    exact fun _ hn => absurd hn List.not_mem_nil
  | cons hv hrest =>
    rw [Json.itemsNumbers, areDoubles_append]
    exact ⟨hv.areDoubles, hrest.areDoubles⟩

theorem Json.FieldsRound.areDoubles {fields fields' : List (String × Json)}
    (h : Json.FieldsRound fields fields') : AreDoubles (Json.fieldsNumbers fields') := by
  cases h with
  | nil =>
    rw [Json.fieldsNumbers]
    exact fun _ hn => absurd hn List.not_mem_nil
  | cons hv hrest =>
    rw [Json.fieldsNumbers, areDoubles_append]
    exact ⟨hv.areDoubles, hrest.areDoubles⟩

end

mutual

theorem Json.Rounds.wellFormed {v v' : Json} (h : v.Rounds v') (hv : v.WellFormed) :
    v'.WellFormed := by
  cases h with
  | null | bool | string => exact hv
  | number h =>
    rw [Json.WellFormed] at hv ⊢
    exact h.isFinite hv
  | array h =>
    rw [Json.WellFormed] at hv ⊢
    exact h.wellFormed hv
  | object h =>
    rw [Json.WellFormed, Fields.Sorted] at hv ⊢
    rw [h.names_eq]
    exact ⟨hv.1, h.wellFormed hv.2⟩

theorem Json.ItemsRound.wellFormed {items items' : List Json} (h : Json.ItemsRound items items')
    (hitems : Json.ItemsWellFormed items) : Json.ItemsWellFormed items' := by
  cases h with
  | nil => exact hitems
  | cons hv hrest =>
    rw [Json.ItemsWellFormed] at hitems ⊢
    exact ⟨hv.wellFormed hitems.1, hrest.wellFormed hitems.2⟩

theorem Json.FieldsRound.wellFormed {fields fields' : List (String × Json)}
    (h : Json.FieldsRound fields fields') (hfields : Json.FieldsWellFormed fields) :
    Json.FieldsWellFormed fields' := by
  cases h with
  | nil => exact hfields
  | cons hv hrest =>
    rw [Json.FieldsWellFormed] at hfields ⊢
    exact ⟨hv.wellFormed hfields.1, hrest.wellFormed hfields.2⟩

end

/-! ## Documents there and back -/

mutual

theorem Json.rounds_toJson_ofJson (v : Json) (h : v.WellFormed) :
    v.Rounds (StructValue.ofJson v).toJson := by
  cases v with
  | null =>
    rw [StructValue.ofJson, StructValue.toJson]
    exact .null
  | bool b =>
    rw [StructValue.ofJson, StructValue.toJson]
    exact .bool b
  | number n =>
    rw [Json.WellFormed] at h
    have hrounds := n.rounds_toDouble
    rw [StructValue.ofJson, StructValue.toJson, Json.ofDouble, Number.ofDouble?,
      if_pos (hrounds.isFinite h)]
    exact .number hrounds
  | string s =>
    rw [StructValue.ofJson, StructValue.toJson]
    exact .string s
  | array items =>
    rw [Json.WellFormed] at h
    rw [StructValue.ofJson, StructValue.toJson]
    exact .array (Json.itemsRound_itemsToJson items h)
  | object fields =>
    rw [Json.WellFormed] at h
    have hround := Json.fieldsRound_fieldsToJson fields h.2
    have hsorted : Fields.Sorted (StructValue.fieldsToJson (StructValue.fieldsOfJson fields)) := by
      rw [Fields.Sorted, hround.names_eq]
      exact h.1
    rw [StructValue.ofJson, StructValue.toJson, Json.ofFields, hsorted.ofList_eq (.refl _)]
    exact .object hround

theorem Json.itemsRound_itemsToJson (items : List Json) (h : Json.ItemsWellFormed items) :
    Json.ItemsRound items (StructValue.itemsToJson (StructValue.itemsOfJson items)) := by
  cases items with
  | nil =>
    rw [StructValue.itemsOfJson, StructValue.itemsToJson]
    exact .nil
  | cons v rest =>
    rw [Json.ItemsWellFormed] at h
    rw [StructValue.itemsOfJson, StructValue.itemsToJson]
    exact .cons (Json.rounds_toJson_ofJson v h.1) (Json.itemsRound_itemsToJson rest h.2)

theorem Json.fieldsRound_fieldsToJson (fields : List (String × Json))
    (h : Json.FieldsWellFormed fields) :
    Json.FieldsRound fields (StructValue.fieldsToJson (StructValue.fieldsOfJson fields)) := by
  cases fields with
  | nil =>
    rw [StructValue.fieldsOfJson, StructValue.fieldsToJson]
    exact .nil
  | cons f rest =>
    obtain ⟨name, v⟩ := f
    rw [Json.FieldsWellFormed] at h
    rw [StructValue.fieldsOfJson, StructValue.fieldsToJson]
    exact .cons (Json.rounds_toJson_ofJson v h.1) (Json.fieldsRound_fieldsToJson rest h.2)

end

/-! ## Structs there and back -/

mutual

/-- What an object says of a value: null where nothing is set, where null came with a number of its
own, and where a number is not finite. -/
def StructValue.settled : StructValue → StructValue
  | .unset => .null 0
  | .null _ => .null 0
  | .number d => if d.isFinite then .number d else .null 0
  | .list items => .list (StructValue.settledItems items)
  | .struct fields => .struct (StructValue.settledFields fields)
  | v => v

/-- What an array says of values. -/
def StructValue.settledItems : List StructValue → List StructValue
  | [] => []
  | v :: vs => v.settled :: StructValue.settledItems vs

/-- What an object says of named values. -/
def StructValue.settledFields : List (String × StructValue) → List (String × StructValue)
  | [] => []
  | (name, v) :: rest => (name, v.settled) :: StructValue.settledFields rest

end

/-- What an object says of a struct. -/
def Struct.settled (s : Struct) : Struct := StructValue.settledFields s

theorem StructValue.fieldsOfJson_eq_mapValues (fields : List (String × Json)) :
    StructValue.fieldsOfJson fields = Fields.mapValues StructValue.ofJson fields := by
  induction fields with
  | nil => rw [StructValue.fieldsOfJson]; rfl
  | cons f rest ih =>
    obtain ⟨name, v⟩ := f
    rw [StructValue.fieldsOfJson, ih]
    rfl

/-- The object sorts the names, and so does the struct it is made. -/
theorem StructValue.perm_fieldsOfJson_ofList {fields : List (String × Json)}
    (h : (fields.map (·.1)).Nodup) :
    (StructValue.fieldsOfJson fields).Perm (StructValue.fieldsOfJson (Fields.ofList fields)) := by
  rw [fieldsOfJson_eq_mapValues, fieldsOfJson_eq_mapValues]
  exact (Fields.perm_ofList h).symm.map _

theorem StructValue.names_fieldsToJson (fields : Struct) :
    (StructValue.fieldsToJson fields).map (·.1) = fields.map (·.1) := by
  rw [fieldsToJson_eq_mapValues, Fields.names_mapValues]

mutual

theorem StructValue.reorders_ofJson_toJson (v : StructValue) (h : v.Distinct) :
    v.settled.Reorders (StructValue.ofJson v.toJson) := by
  cases v with
  | unset | null | bool | string =>
    simp only [StructValue.settled, StructValue.toJson, StructValue.ofJson]
    exact .refl _
  | number d =>
    rw [StructValue.settled, StructValue.toJson, Json.ofDouble, Number.ofDouble?]
    by_cases hfinite : d.isFinite = true
    · rw [if_pos hfinite, if_pos hfinite]
      simp only [StructValue.ofJson]
      exact .refl _
    · rw [if_neg hfinite, if_neg hfinite]
      simp only [StructValue.ofJson]
      exact .refl _
  | list items =>
    rw [StructValue.Distinct] at h
    rw [StructValue.settled, StructValue.toJson, StructValue.ofJson]
    exact .list (StructValue.itemsReorder_itemsOfJson items h)
  | struct fields =>
    rw [StructValue.Distinct] at h
    obtain ⟨hnodup, hfields⟩ := h
    rw [StructValue.settled, StructValue.toJson, Json.ofFields, StructValue.ofJson]
    rw [← StructValue.names_fieldsToJson] at hnodup
    exact .struct (StructValue.fieldsReorder_fieldsOfJson fields hfields)
      (StructValue.perm_fieldsOfJson_ofList hnodup)

theorem StructValue.itemsReorder_itemsOfJson (items : List StructValue)
    (h : StructValue.ItemsDistinct items) :
    StructValue.ItemsReorder (StructValue.settledItems items)
      (StructValue.itemsOfJson (StructValue.itemsToJson items)) := by
  cases items with
  | nil =>
    rw [StructValue.settledItems, StructValue.itemsToJson, StructValue.itemsOfJson]
    exact .nil
  | cons v rest =>
    rw [StructValue.ItemsDistinct] at h
    rw [StructValue.settledItems, StructValue.itemsToJson, StructValue.itemsOfJson]
    exact .cons (v.reorders_ofJson_toJson h.1) (StructValue.itemsReorder_itemsOfJson rest h.2)

theorem StructValue.fieldsReorder_fieldsOfJson (fields : List (String × StructValue))
    (h : StructValue.FieldsDistinct fields) :
    StructValue.FieldsReorder (StructValue.settledFields fields)
      (StructValue.fieldsOfJson (StructValue.fieldsToJson fields)) := by
  cases fields with
  | nil =>
    rw [StructValue.settledFields, StructValue.fieldsToJson, StructValue.fieldsOfJson]
    exact .nil
  | cons f rest =>
    obtain ⟨name, v⟩ := f
    rw [StructValue.FieldsDistinct] at h
    rw [StructValue.settledFields, StructValue.fieldsToJson, StructValue.fieldsOfJson]
    exact .cons (v.reorders_ofJson_toJson h.1) (StructValue.fieldsReorder_fieldsOfJson rest h.2)

end

/-! ## Both ways -/

/-- The fields of an object become those of the struct it is made, each number the nearest double. -/
theorem Struct.toJson_ofFields {fields : List (String × Json)} (h : (Json.object fields).WellFormed) :
    ∃ fields', (Struct.ofFields fields).toJson = .object fields' ∧
      Json.FieldsRound fields fields' := by
  have hround := Json.rounds_toJson_ofJson (.object fields) h
  rw [StructValue.ofJson, StructValue.toJson] at hround
  cases hround with
  | object hfields => exact ⟨_, rfl, hfields⟩

/-- An object made a struct and back is itself with every number the nearest double, which changes
nothing where all are doubles and nothing a second time. A struct made an object and back is itself
with null for what an object cannot say. -/
theorem Struct.conversions_inverse :
    (∀ fields : List (String × Json), (Json.object fields).WellFormed →
      ∃ fields', (Struct.ofFields fields).toJson = .object fields' ∧
        Json.FieldsRound fields fields' ∧
        (AreDoubles (Json.fieldsNumbers fields) → fields' = fields) ∧
        (Struct.ofFields fields').toJson = .object fields') ∧
    ∀ s : Struct, s.Distinct →
      ∃ fields, s.toJson = .object fields ∧ s.settled.Reorders (Struct.ofFields fields) := by
  constructor
  · intro fields hwell
    obtain ⟨fields', hback, hround⟩ := Struct.toJson_ofFields hwell
    have hwell' : (Json.object fields').WellFormed := (Json.Rounds.object hround).wellFormed hwell
    obtain ⟨fields'', hagain, hround'⟩ := Struct.toJson_ofFields hwell'
    refine ⟨fields', hback, hround, hround.eq_self, ?_⟩
    rw [hagain, hround'.eq_self hround.areDoubles]
  · intro s hs
    obtain ⟨hnodup, hfields⟩ := hs
    rw [← StructValue.names_fieldsToJson] at hnodup
    exact ⟨_, rfl, _, StructValue.fieldsReorder_fieldsOfJson s hfields,
      StructValue.perm_fieldsOfJson_ofList hnodup⟩

/-- Whole numbers that no double is, at two depths, and the negative zero. -/
def wholeFields : List (String × Json) :=
  [("ids", .array [.number (.whole ⟨9007199254740993, by decide⟩),
      .object [("last", .number (.whole ⟨18446744073709551615, by decide⟩))]]),
    ("zero", .number (.double ⟨0x8000000000000000⟩))]

/-- The doubles next to them. -/
def roundedFields : List (String × Json) :=
  [("ids", .array [.number (.double ⟨0x4340000000000000⟩),
      .object [("last", .number (.double ⟨0x43f0000000000000⟩))]]),
    ("zero", .number (.double ⟨0x8000000000000000⟩))]

/-- What an object cannot say, in a list and in a struct of a struct. -/
def unsayable : Struct :=
  [("user", .struct [("score", .number ⟨0x7ff8000000000000⟩), ("name", .string "ann")]),
    ("bounds", .list [.number ⟨0xfff0000000000000⟩, .unset, .null 7])]

theorem Struct.conversions_inverse_lossy :
    (Json.object wholeFields).WellFormed ∧ unsayable.Distinct ∧
      (Struct.ofFields wholeFields).toJson = .object roundedFields ∧
      Json.FieldsRound wholeFields roundedFields ∧
      (Struct.ofFields roundedFields).toJson = .object roundedFields ∧
      unsayable.settled.Reorders
        [("bounds", .list [.null 0, .null 0, .null 0]),
          ("user", .struct [("name", .string "ann"), ("score", .null 0)])] := by
  have hwell : (Json.object wholeFields).WellFormed := by
    simp only [wholeFields, Json.WellFormed, Json.FieldsWellFormed, Json.ItemsWellFormed,
      Number.IsFinite, Fields.Sorted]
    decide +kernel
  have hdistinct : unsayable.Distinct := by
    simp [unsayable, Struct.Distinct, StructValue.FieldsDistinct, StructValue.ItemsDistinct,
      StructValue.Distinct]
  have hrounded : (Struct.ofFields wholeFields).toJson = .object roundedFields := by rfl
  have hsaid : unsayable.toJson = .object
      [("bounds", .array [.null, .null, .null]),
        ("user", .object [("name", .string "ann"), ("score", .null)])] := rfl
  obtain ⟨fields', hback, hround, -, hagain⟩ := Struct.conversions_inverse.1 wholeFields hwell
  obtain ⟨fields, hfields, hreorders⟩ := Struct.conversions_inverse.2 unsayable hdistinct
  obtain rfl := Json.object.inj (hrounded.symm.trans hback)
  obtain rfl := Json.object.inj (hsaid.symm.trans hfields)
  exact ⟨hwell, hdistinct, hrounded, hround, hagain, hreorders⟩

end AuthGate
