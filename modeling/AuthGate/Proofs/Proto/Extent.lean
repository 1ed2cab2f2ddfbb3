import AuthGate.Proofs.Proto.RoundTrip

set_option autoImplicit false

/-! # How long the parts of a message are

The bytes that stand in a message are shorter than those that it was read from, however deep they
stand in it, since something always goes before them: their number. The main statement is
`longest_merge_le`. -/

namespace AuthGate.Proto

/-! ## The longest bytes -/

mutual

/-- The length of the longest bytes in a value. -/
def Value.longest : Value → Nat
  | .bytes bs => bs.length
  | .message fields => fieldsLongest fields
  | _ => 0

/-- The length of the longest bytes in what a field holds. -/
def Content.longest : Content → Nat
  | .one v => v.longest
  | .many vs => valuesLongest vs
  | .map entries => entriesLongest entries

/-- The length of the longest bytes in values. -/
def valuesLongest : List Value → Nat
  | [] => 0
  | v :: vs => max v.longest (valuesLongest vs)

/-- The length of the longest bytes in the values of entries. -/
def entriesLongest : List (Key × Value) → Nat
  | [] => 0
  | (_, v) :: rest => max v.longest (entriesLongest rest)

/-- The length of the longest bytes in the fields of a message. -/
def fieldsLongest : List (Nat × Content) → Nat
  | [] => 0
  | (_, c) :: rest => max c.longest (fieldsLongest rest)

end

/-- The length of the longest bytes in a message. -/
abbrev Message.longest (m : Message) : Nat := fieldsLongest m

variable {n : Nat}

theorem valuesLongest_le_iff {vs : List Value} :
    valuesLongest vs ≤ n ↔ ∀ v ∈ vs, v.longest ≤ n := by
  induction vs with
  | nil => simp [valuesLongest]
  | cons v rest ih => rw [valuesLongest, Nat.max_le, ih, List.forall_mem_cons]

theorem Message.longest_le_iff {m : Message} :
    m.longest ≤ n ↔ ∀ field ∈ m, field.2.longest ≤ n := by
  induction m with
  | nil => simp [fieldsLongest]
  | cons field rest ih => rw [Message.longest, fieldsLongest, Nat.max_le, ih, List.forall_mem_cons]

/-! ## Fields set and read -/

namespace Message

variable {m : Message} {number : Nat} {c : Content}

theorem mem_of_get? (h : m.get? number = some c) : (number, c) ∈ m := by
  induction m with
  | nil => cases h
  | cons field rest ih =>
    obtain ⟨k, old⟩ := field
    rw [get?] at h
    split at h
    · next hk =>
      cases h
      exact hk ▸ List.mem_cons_self ..
    · exact List.mem_cons_of_mem _ (ih h)

theorem longest_of_get? (hm : m.longest ≤ n) (h : m.get? number = some c) : c.longest ≤ n :=
  longest_le_iff.1 hm _ (mem_of_get? h)

theorem longest_nested? (hm : m.longest ≤ n) {fields : Message}
    (h : m.nested? number = some fields) : fields.longest ≤ n := by
  rw [nested?, one?] at h
  split at h
  · next hone =>
    split at hone
    · next hget =>
      cases hone
      cases h
      exact longest_of_get? hm hget
    · cases hone
  · cases h

theorem longest_getD_nested? (hm : m.longest ≤ n) : ((m.nested? number).getD []).longest ≤ n := by
  cases h : m.nested? number with
  | none => exact Nat.zero_le n
  | some fields => exact longest_nested? hm h

theorem length_bytes_le (hm : m.longest ≤ n) : (m.bytes number).length ≤ n := by
  rw [bytes, one?]
  split
  · next hone =>
    split at hone
    · next hget =>
      cases hone
      exact longest_of_get? hm hget
    · cases hone
  · exact Nat.zero_le n

theorem longest_many (hm : m.longest ≤ n) : valuesLongest (m.many number) ≤ n := by
  rw [many]
  split
  · next hget => exact longest_of_get? hm hget
  · exact Nat.zero_le n

theorem longest_entries (hm : m.longest ≤ n) : entriesLongest (m.entries number) ≤ n := by
  rw [entries]
  split
  · next hget => exact longest_of_get? hm hget
  · exact Nat.zero_le n

theorem longest_getD_one? (hm : m.longest ≤ n) (kind : Kind) :
    ((m.one? number).getD kind.default).longest ≤ n := by
  rw [one?]
  split
  · next hget => exact longest_of_get? hm hget
  · cases kind <;> exact Nat.zero_le n

theorem longest_set (hm : m.longest ≤ n) (hc : c.longest ≤ n) : (m.set number c).longest ≤ n := by
  induction m with
  | nil => exact Nat.max_le.2 ⟨hc, Nat.zero_le n⟩
  | cons field rest ih =>
    obtain ⟨k, old⟩ := field
    obtain ⟨hold, hrest⟩ := Nat.max_le.1 hm
    rw [Message.set]
    split
    · exact Nat.max_le.2 ⟨hc, hrest⟩
    · split
      · exact Nat.max_le.2 ⟨hc, hm⟩
      · exact Nat.max_le.2 ⟨hold, ih hrest⟩

theorem longest_without (hm : m.longest ≤ n) (numbers : List Nat) :
    (m.without numbers).longest ≤ n :=
  longest_le_iff.2 fun field hfield => longest_le_iff.1 hm field (List.mem_filter.1 hfield).1

theorem longest_assign (hm : m.longest ≤ n) (type : MessageType) (f : Field) {v : Value}
    (hv : v.longest ≤ n) : (m.assign type f v).longest ≤ n := by
  simp only [Message.assign]
  split
  · exact longest_without (longest_without hm _) _
  · exact longest_set (longest_without hm _) hv

theorem longest_extend (hm : m.longest ≤ n) (f : Field) {vs : List Value}
    (hvs : valuesLongest vs ≤ n) : (m.extend f vs).longest ≤ n := by
  simp only [Message.extend]
  split
  · exact hm
  · refine longest_set hm (valuesLongest_le_iff.2 fun v hv => ?_)
    rcases List.mem_append.1 hv with hv | hv
    · exact valuesLongest_le_iff.1 (longest_many hm) v hv
    · exact valuesLongest_le_iff.1 hvs v hv

end Message

theorem longest_putEntry {entries : List (Key × Value)} {v : Value} (key : Key)
    (hentries : entriesLongest entries ≤ n) (hv : v.longest ≤ n) :
    entriesLongest (putEntry key v entries) ≤ n := by
  induction entries with
  | nil => exact Nat.max_le.2 ⟨hv, Nat.zero_le n⟩
  | cons e rest ih =>
    obtain ⟨k, old⟩ := e
    obtain ⟨hold, hrest⟩ := Nat.max_le.1 hentries
    rw [putEntry]
    split
    · exact Nat.max_le.2 ⟨hv, hrest⟩
    · exact Nat.max_le.2 ⟨hold, ih hrest⟩

theorem longest_of_entryOf? {type : MessageType} {entry : Message} {k : Key} {v : Value}
    (hm : entry.longest ≤ n) (h : entryOf? type entry = some (k, v)) : v.longest ≤ n := by
  obtain ⟨key, -, h⟩ := Option.bind_eq_some_iff.1 h
  obtain ⟨value, -, h⟩ := Option.bind_eq_some_iff.1 h
  obtain ⟨k, -, h⟩ := Option.bind_eq_some_iff.1 h
  cases h
  exact Message.longest_getD_one? hm value.kind

/-! ## What is left -/

variable {bs rest : List UInt8}

theorem Varint.length_lt_of_decodeGroups {groups shift k : Nat}
    (h : decodeGroups groups shift bs = some (k, rest)) : rest.length < bs.length := by
  induction groups generalizing shift bs k with
  | zero => cases h
  | succ groups ih =>
    cases bs with
    | nil => cases h
    | cons b tail =>
      simp only [decodeGroups] at h
      split at h
      · split at h
        · cases h
        · cases h
          exact Nat.lt_succ_self _
      · obtain ⟨⟨m, left⟩, hm, h⟩ := Option.bind_eq_some_iff.1 h
        cases h
        exact Nat.lt_succ_of_lt (ih hm)

theorem length_of_take? {k : Nat} {word : List UInt8} (h : take? k bs = some (word, rest)) :
    word.length ≤ bs.length ∧ rest.length ≤ bs.length := by
  rw [take?] at h
  split at h
  · cases h
    rw [List.length_take, List.length_drop]
    omega
  · cases h

/-- Bytes are preceded by their number. -/
theorem length_of_delimited {word : List UInt8} (h : delimited bs = some (word, rest)) :
    word.length < bs.length ∧ rest.length < bs.length := by
  obtain ⟨⟨k, left⟩, hk, h⟩ := Option.bind_eq_some_iff.1 h
  have hleft := Varint.length_lt_of_decodeGroups hk
  obtain ⟨hword, hrest⟩ := length_of_take? h
  exact ⟨Nat.lt_of_le_of_lt hword hleft, Nat.lt_of_le_of_lt hrest hleft⟩

theorem length_of_fixed {width k : Nat} (h : fixed width bs = some (k, rest)) :
    rest.length ≤ bs.length := by
  obtain ⟨⟨word, left⟩, hword, h⟩ := Option.bind_eq_some_iff.1 h
  cases h
  exact (length_of_take? hword).2

theorem length_of_fieldKey {key : Nat × WireType} (h : fieldKey bs = some (key, rest)) :
    rest.length < bs.length := by
  obtain ⟨⟨k, left⟩, hk, h⟩ := Option.bind_eq_some_iff.1 h
  obtain ⟨wire, -, h⟩ := Option.bind_eq_some_iff.1 h
  split at h
  · cases h
    exact Varint.length_lt_of_decodeGroups hk
  · cases h

theorem length_of_scalar {kind : Kind} {v : Value} (h : scalar kind bs = some (v, rest))
    (hbs : bs.length ≤ n + 1) : v.longest ≤ n ∧ rest.length ≤ bs.length := by
  cases kind with
  | message | group => cases h
  | bytes =>
    obtain ⟨⟨word, left⟩, hword, h⟩ := Option.bind_eq_some_iff.1 h
    cases h
    obtain ⟨hlt, hrest⟩ := length_of_delimited hword
    exact ⟨Nat.le_of_lt_succ (Nat.lt_of_lt_of_le hlt hbs), Nat.le_of_lt hrest⟩
  | string =>
    obtain ⟨⟨word, left⟩, hword, h⟩ := Option.bind_eq_some_iff.1 h
    obtain ⟨text, -, h⟩ := Option.bind_eq_some_iff.1 h
    cases h
    exact ⟨Nat.zero_le n, Nat.le_of_lt (length_of_delimited hword).2⟩
  | double | float | fixed32 | fixed64 | sfixed32 | sfixed64 =>
    obtain ⟨⟨k, left⟩, hk, h⟩ := Option.bind_eq_some_iff.1 h
    cases h
    exact ⟨Nat.zero_le n, length_of_fixed hk⟩
  | _ =>
    obtain ⟨⟨k, left⟩, hk, h⟩ := Option.bind_eq_some_iff.1 h
    cases h
    exact ⟨Nat.zero_le n, Nat.le_of_lt (Varint.length_lt_of_decodeGroups hk)⟩

/-! ## Steps -/

/-- A step leaves no more bytes than it is given, and of what it makes nothing is longer than a
    bound, if that holds of what it begins with and the bytes are at most one longer. -/
def Bounded {α : Type} (n : Nat) (size : α → Nat) (step : α → Reader α) : Prop :=
  ∀ a bs b rest, step a bs = some (b, rest) → size a ≤ n → bs.length ≤ n + 1 →
    size b ≤ n ∧ rest.length ≤ bs.length

section Loops

variable {α : Type} {size : α → Nat} {a b : α} {fuel : Nat}

/-- What every step keeps, the loop to the end of the bytes keeps. -/
theorem Bounded.untilEnd {step : α → Reader α} (hstep : Bounded n size step)
    (h : untilEnd step fuel a bs = some b) (ha : size a ≤ n) (hbs : bs.length ≤ n + 1) :
    size b ≤ n := by
  induction fuel generalizing a bs with
  | zero =>
    cases bs with
    | nil =>
      cases h
      exact ha
    | cons _ _ => cases h
  | succ fuel ih =>
    cases bs with
    | nil =>
      cases h
      exact ha
    | cons first tail =>
      obtain ⟨⟨c, left⟩, hc, h⟩ := Option.bind_eq_some_iff.1 h
      obtain ⟨hsize, hleft⟩ := hstep _ _ _ _ hc ha hbs
      exact ih h hsize (Nat.le_trans hleft hbs)

/-- What every step keeps, the loop to the end of a group keeps. -/
theorem Bounded.untilGroupEnd {number : Nat} {step : Nat → WireType → α → Reader α}
    (hstep : ∀ k wire, Bounded n size (step k wire)) :
    Bounded n size (untilGroupEnd number step fuel) := by
  intro a bs b rest h ha hbs
  induction fuel generalizing a bs with
  | zero => cases h
  | succ fuel ih =>
    obtain ⟨⟨⟨k, wire⟩, left⟩, hkey, h⟩ := Option.bind_eq_some_iff.1 h
    have hleft := Nat.le_of_lt (length_of_fieldKey hkey)
    dsimp only at h
    split at h
    · split at h
      · cases h
        exact ⟨ha, hleft⟩
      · cases h
    · obtain ⟨⟨c, later⟩, hc, h⟩ := Option.bind_eq_some_iff.1 h
      obtain ⟨hsize, hlater⟩ := hstep k wire _ _ _ _ hc ha (Nat.le_trans hleft hbs)
      have hshorter := Nat.le_trans hlater hleft
      obtain ⟨hb, hrest⟩ := ih _ _ h hsize (Nat.le_trans hshorter hbs)
      exact ⟨hb, Nat.le_trans hrest hshorter⟩

end Loops

theorem length_of_skip {depth number : Nat} {wire : WireType}
    (h : skip depth number wire bs = some rest) : rest.length ≤ bs.length := by
  induction depth generalizing number wire bs rest with
  | zero => cases h
  | succ depth ih =>
    cases wire with
    | varint =>
      obtain ⟨_, hread, rfl⟩ := Option.map_eq_some_iff.1 h
      exact Nat.le_of_lt (Varint.length_lt_of_decodeGroups hread)
    | eight | four =>
      obtain ⟨_, hread, rfl⟩ := Option.map_eq_some_iff.1 h
      exact (length_of_take? hread).2
    | delimited =>
      obtain ⟨_, hread, rfl⟩ := Option.map_eq_some_iff.1 h
      exact Nat.le_of_lt (length_of_delimited hread).2
    | groupStart =>
      obtain ⟨_, hread, rfl⟩ := Option.map_eq_some_iff.1 h
      have hstep : ∀ k wire, Bounded bs.length (fun _ : Unit => 0)
          fun _ bs => (skip depth k wire bs).map fun rest => ((), rest) := by
        intro k wire _ bs' _ rest' hskip _ _
        obtain ⟨left, hleft, heq⟩ := Option.map_eq_some_iff.1 hskip
        cases heq
        exact ⟨Nat.zero_le _, ih hleft⟩
      exact (Bounded.untilGroupEnd hstep _ _ _ _ hread (Nat.zero_le _) (Nat.le_succ _)).2
    | groupEnd => cases h

/-- A step that reads a field of a message, if its key is read before. -/
theorem Bounded.fieldStep {step : Nat → WireType → Message → Reader Message}
    (hstep : ∀ k wire, Bounded n Message.longest (step k wire)) :
    Bounded n Message.longest (fieldStep step) := by
  intro m bs m' rest h hm hbs
  obtain ⟨⟨⟨k, wire⟩, left⟩, hkey, h⟩ := Option.bind_eq_some_iff.1 h
  have hleft := Nat.le_of_lt (length_of_fieldKey hkey)
  obtain ⟨hm', hrest⟩ := hstep k wire _ _ _ _ h hm (Nat.le_trans hleft hbs)
  exact ⟨hm', Nat.le_trans hrest hleft⟩

/-! ## Messages -/

variable {s : Schema}

theorem longest_of_packed {kind : Kind} {vs : List Value} (h : packed kind bs = some vs)
    (hbs : bs.length ≤ n + 1) : valuesLongest vs ≤ n := by
  obtain ⟨reversed, hread, rfl⟩ := Option.map_eq_some_iff.1 h
  have hreversed : valuesLongest reversed ≤ n := by
    refine Bounded.untilEnd ?_ hread (Nat.zero_le n) hbs
    intro vs bs vs' rest hvs hsize hbs
    obtain ⟨⟨v, left⟩, hv, heq⟩ := Option.map_eq_some_iff.1 hvs
    cases heq
    obtain ⟨hlongest, hleft⟩ := length_of_scalar hv hbs
    exact ⟨Nat.max_le.2 ⟨hlongest, hsize⟩, hleft⟩
  rw [valuesLongest_le_iff] at hreversed ⊢
  exact fun v hv => hreversed v (List.mem_reverse.1 hv)

section Nested

variable {nested : Option (MessageType → Nat → WireType → Message → Reader Message)}

/-- The fields of a message one level down, whose bytes stand behind their number. -/
theorem longest_of_delimited
    (hnested : ∀ step ∈ nested, ∀ t k wire, Bounded n Message.longest (step t k wire))
    {t : MessageType} {word : List UInt8} {old body : Message}
    (hword : delimited bs = some (word, rest))
    (h : (nested.bind fun step => untilEnd (fieldStep (step t)) word.length old word) = some body)
    (hold : old.longest ≤ n) (hbs : bs.length ≤ n + 1) :
    body.longest ≤ n ∧ rest.length ≤ bs.length := by
  obtain ⟨step, hstep, h⟩ := Option.bind_eq_some_iff.1 h
  obtain ⟨hlt, hrest⟩ := length_of_delimited hword
  exact ⟨(Bounded.fieldStep (hnested step hstep t)).untilEnd h hold
    (Nat.le_trans (Nat.le_of_lt hlt) hbs), Nat.le_of_lt hrest⟩

variable {f : Field} {name : String}

/-- A message: an entry of a map, one of many, or the only one. -/
theorem bounded_mergeOne_message (hkind : f.kind = .message name) (type : MessageType)
    (wire : WireType)
    (hnested : ∀ step ∈ nested, ∀ t k wire, Bounded n Message.longest (step t k wire)) :
    Bounded n Message.longest (mergeOne s type f wire nested) := by
  intro m bs m' rest h hm hbs
  simp only [mergeOne, hkind] at h
  obtain ⟨t, -, h⟩ := Option.bind_eq_some_iff.1 h
  split at h
  · obtain ⟨⟨word, left⟩, hword, h⟩ := Option.bind_eq_some_iff.1 h
    obtain ⟨body, hbody, h⟩ := Option.bind_eq_some_iff.1 h
    obtain ⟨⟨k, v⟩, hentry, h⟩ := Option.bind_eq_some_iff.1 h
    cases h
    obtain ⟨hinner, hleft⟩ := longest_of_delimited hnested hword hbody (Nat.zero_le n) hbs
    exact ⟨Message.longest_set hm (longest_putEntry k (Message.longest_entries hm)
      (longest_of_entryOf? hinner hentry)), hleft⟩
  · split at h
    · obtain ⟨⟨word, left⟩, hword, h⟩ := Option.bind_eq_some_iff.1 h
      obtain ⟨body, hbody, h⟩ := Option.bind_eq_some_iff.1 h
      cases h
      obtain ⟨hinner, hleft⟩ := longest_of_delimited hnested hword hbody (Nat.zero_le n) hbs
      exact ⟨Message.longest_extend hm f (Nat.max_le.2 ⟨hinner, Nat.zero_le n⟩), hleft⟩
    · cases h
  · split at h
    · obtain ⟨⟨word, left⟩, hword, h⟩ := Option.bind_eq_some_iff.1 h
      obtain ⟨body, hbody, h⟩ := Option.bind_eq_some_iff.1 h
      cases h
      obtain ⟨hinner, hleft⟩ :=
        longest_of_delimited hnested hword hbody (Message.longest_getD_nested? hm) hbs
      exact ⟨Message.longest_assign hm type f hinner, hleft⟩
    · cases h

theorem bounded_mergeOne_group (hkind : f.kind = .group name) (type : MessageType)
    (wire : WireType)
    (hnested : ∀ step ∈ nested, ∀ t k wire, Bounded n Message.longest (step t k wire)) :
    Bounded n Message.longest (mergeOne s type f wire nested) := by
  intro m bs m' rest h hm hbs
  simp only [mergeOne, hkind] at h
  obtain ⟨t, -, h⟩ := Option.bind_eq_some_iff.1 h
  obtain ⟨step, hstep, h⟩ := Option.bind_eq_some_iff.1 h
  split at h
  · obtain ⟨⟨body, left⟩, hbody, h⟩ := Option.bind_eq_some_iff.1 h
    cases h
    have hold : (if f.arity = .one then (m.nested? f.number).getD [] else []).longest ≤ n := by
      split
      · exact Message.longest_getD_nested? hm
      · exact Nat.zero_le n
    obtain ⟨hinner, hleft⟩ := Bounded.untilGroupEnd (hnested step hstep t) _ _ _ _ hbody hold hbs
    refine ⟨?_, hleft⟩
    split
    · exact Message.longest_assign hm type f hinner
    · exact Message.longest_extend hm f (Nat.max_le.2 ⟨hinner, Nat.zero_le n⟩)
  · cases h

/-- Scalars: one, many that stand together, or one of many. -/
theorem bounded_mergeOne_scalar (hmessage : ∀ name, f.kind ≠ .message name)
    (hgroup : ∀ name, f.kind ≠ .group name) (type : MessageType) (wire : WireType) :
    Bounded n Message.longest (mergeOne s type f wire nested) := by
  intro m bs m' rest h hm hbs
  simp only [mergeOne] at h
  split at h
  · split at h
    · obtain ⟨⟨v, left⟩, hv, h⟩ := Option.bind_eq_some_iff.1 h
      cases h
      obtain ⟨hlongest, hleft⟩ := length_of_scalar hv hbs
      exact ⟨Message.longest_assign hm type f hlongest, hleft⟩
    · cases h
  split at h
  · obtain ⟨⟨word, left⟩, hword, h⟩ := Option.bind_eq_some_iff.1 h
    obtain ⟨hlt, hleft⟩ := length_of_delimited hword
    obtain ⟨vs, hvs, h⟩ := Option.bind_eq_some_iff.1 h
    cases h
    have hlongest := longest_of_packed hvs (Nat.le_trans (Nat.le_of_lt hlt) hbs)
    exact ⟨Message.longest_extend hm f hlongest, Nat.le_of_lt hleft⟩
  split at h
  · obtain ⟨⟨v, left⟩, hv, h⟩ := Option.bind_eq_some_iff.1 h
    cases h
    obtain ⟨hlongest, hleft⟩ := length_of_scalar hv hbs
    exact ⟨Message.longest_extend hm f (Nat.max_le.2 ⟨hlongest, Nat.zero_le n⟩), hleft⟩
  · cases h

/-- A field is read within the bound if the fields of the messages one level down are. -/
theorem bounded_mergeOne (type : MessageType) (f : Field) (wire : WireType)
    (hnested : ∀ step ∈ nested, ∀ t k wire, Bounded n Message.longest (step t k wire)) :
    Bounded n Message.longest (mergeOne s type f wire nested) := by
  cases hkind : f.kind with
  | message name => exact bounded_mergeOne_message hkind type wire hnested
  | group name => exact bounded_mergeOne_group hkind type wire hnested
  | _ =>
    refine bounded_mergeOne_scalar (fun name => ?_) (fun name => ?_) type wire <;>
      rw [hkind] <;> exact Kind.noConfusion

end Nested

/-- A field is read within the bound at every level: those of the messages below it are, by
    induction on the levels that are left. -/
theorem bounded_mergeField (levels : Nat) (type : MessageType) (number : Nat) (wire : WireType) :
    Bounded n Message.longest (mergeField s levels type number wire) := by
  have hnested : ∀ step ∈ nestedReader s levels, ∀ t k wire,
      Bounded n Message.longest (step t k wire) := by
    intro step hstep
    cases levels with
    | zero => cases hstep
    | succ levels =>
      cases hstep
      exact bounded_mergeField levels
  intro m bs m' rest h hm hbs
  cases hf : type.field? number with
  | none =>
    rw [mergeField.eq_def] at h
    simp only [hf] at h
    obtain ⟨left, hskip, h⟩ := Option.bind_eq_some_iff.1 h
    cases h
    exact ⟨hm, length_of_skip hskip⟩
  | some f =>
    rw [mergeField_of_field? hf] at h
    exact bounded_mergeOne type f wire hnested _ _ _ _ h hm hbs

/-- The bytes that stand in a message are shorter than those that it was read from. -/
theorem longest_merge_le {type : MessageType} {m m' : Message} (h : merge s type m bs = some m')
    (hm : m.longest ≤ n) (hbs : bs.length ≤ n + 1) : m'.longest ≤ n :=
  (Bounded.fieldStep fun k wire => bounded_mergeField maxDepth type k wire).untilEnd h hm hbs

end AuthGate.Proto
