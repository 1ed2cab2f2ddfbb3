import AuthGate.Proofs.Proto.Conformance

set_option autoImplicit false

/-! # Messages are read as they were written

A message of a type is read back from its bytes: `decode?_encode`. Every field is read behind those
with smaller numbers, and what it holds is what was written; a message one level down is read back
by induction on the levels. -/

namespace AuthGate.Proto

/-! ## Reading step by step -/

/-- Steps that take bytes from first to last, whatever stands after them, and what they make of what
    was there before. -/
inductive Reads {α : Type} (step : α → Reader α) : α → List UInt8 → α → Prop
  | done (a : α) : Reads step a [] a
  | more {a b c : α} {w bs : List UInt8} (hne : w ≠ [])
    (hstep : ∀ rest, step a (w ++ rest) = some (b, rest)) (hrest : Reads step b bs c) :
    Reads step a (w ++ bs) c

namespace Reads

variable {α : Type} {step : α → Reader α} {a b c : α}

theorem single {w : List UInt8} (hne : w ≠ [])
    (hstep : ∀ rest, step a (w ++ rest) = some (b, rest)) : Reads step a w b := by
  have h := Reads.more hne hstep (.done b)
  rwa [List.append_nil] at h

theorem trans {bs cs : List UInt8} (h : Reads step a bs b) (h' : Reads step b cs c) :
    Reads step a (bs ++ cs) c := by
  induction h with
  | done a => exact h'
  | more hne hstep _ ih =>
    rw [List.append_assoc]
    exact .more hne hstep (ih h')

/-- As many repetitions as there are bytes are enough. -/
theorem untilEnd {bs : List UInt8} (h : Reads step a bs b) {fuel : Nat}
    (hfuel : bs.length ≤ fuel) : untilEnd step fuel a bs = some b := by
  induction h generalizing fuel with
  | done a => cases fuel <;> rfl
  | @more a b c w bs hne hstep _ ih =>
    obtain ⟨x, xs, rfl⟩ := List.exists_cons_of_ne_nil hne
    rw [List.cons_append, List.length_cons, List.length_append] at hfuel
    obtain ⟨fuel, rfl⟩ : ∃ k, fuel = k + 1 := ⟨fuel - 1, by omega⟩
    have hx := hstep bs
    rw [List.cons_append] at hx ⊢
    simp only [Proto.untilEnd, hx]
    exact ih (by omega)

end Reads

/-! ## Keys -/

/-- The field with its key at which bytes begin, read into a message. -/
def fieldStep (step : Nat → WireType → Message → Reader Message) : Message → Reader Message :=
  fun m bs => do
    let ((n, wire), bs) ← fieldKey bs
    step n wire m bs

/-- The bytes are the key of a field, however it is spelled. -/
def IsKey (number : Nat) (wire : WireType) (bs : List UInt8) : Prop :=
  Varint.IsVarint bs (number * 8 + wire.toNat)

theorem WireType.toNat_lt (wire : WireType) : wire.toNat < 8 := by cases wire <;> decide

theorem WireType.ofNat?_toNat (wire : WireType) : ofNat? wire.toNat = some wire := by
  cases wire <;> rfl

theorem fieldKey_of_isKey {number : Nat} {wire : WireType} {bs : List UInt8}
    (hnumber : IsFieldNumber number) (h : IsKey number wire bs) (rest : List UInt8) :
    fieldKey (bs ++ rest) = some ((number, wire), rest) := by
  obtain ⟨hpos, hlt⟩ := hnumber
  have hwire := wire.toNat_lt
  have hdiv : (number * 8 + wire.toNat) / 8 = number := by omega
  have hmod : (number * 8 + wire.toNat) % 8 = wire.toNat := by omega
  have hkey : (decide (number * 8 + wire.toNat < 0x100000000) && decide (0 < number)) = true := by
    rw [Bool.and_eq_true, decide_eq_true_iff, decide_eq_true_iff]
    omega
  simp only [fieldKey, Varint.decode_of_isVarint h, Option.bind_eq_bind, Option.bind_some, hmod,
    WireType.ofNat?_toNat, hdiv, hkey, if_true, Option.pure_def]

theorem isKey_keyBytes {number : Nat} (h : IsFieldNumber number) (wire : WireType) :
    IsKey number wire (keyBytes number wire) := by
  have hwire := wire.toNat_lt
  have hlt := h.2
  exact Varint.isVarint_encode (by omega)

theorem fieldStep_of_isKey {step : Nat → WireType → Message → Reader Message} {number : Nat}
    {wire : WireType} {key : List UInt8} (hnumber : IsFieldNumber number)
    (h : IsKey number wire key) (m : Message) (rest : List UInt8) :
    fieldStep step m (key ++ rest) = step number wire m rest := by
  rw [fieldStep, fieldKey_of_isKey hnumber h]
  rfl

/-! ## One value -/

section Value

variable {s : Schema} {type : MessageType} {f : Field} {m : Message}
  {step : MessageType → Nat → WireType → Message → Reader Message}

/-- Values that carry their length never stand together without keys. -/
theorem wireType_delimited_and_isPackable (k : Kind) :
    (decide (k.wireType = .delimited) && k.isPackable) = false := by
  cases k <;> rfl

/-- A field of a kind that is no message reads one value of that kind. -/
theorem mergeOne_of_holds {v : Value} (h : f.kind.Holds v)
    (hsize : (scalarBytes f.kind v).length < 2 ^ 64)
    (nested : Option (MessageType → Nat → WireType → Message → Reader Message))
    (rest : List UInt8) :
    mergeOne s type f f.kind.wireType nested m (scalarBytes f.kind v ++ rest) =
      some (if f.arity = .one then m.assign type f v else m.extend f [v], rest) := by
  have hread := scalar_scalarBytes h hsize rest
  cases hkind : f.kind
  case message => rw [hkind] at h; cases v <;> simp only [Kind.Holds] at h
  case group => rw [hkind] at h; cases v <;> simp only [Kind.Holds] at h
  all_goals
    rw [hkind] at hread
    simp only [mergeOne, hkind, wireType_delimited_and_isPackable, hread, Bool.false_eq_true,
      if_true, if_false, Option.bind_eq_bind, Option.bind_some]
    split <;> rfl

variable {name : String} {t : MessageType} {body : List UInt8} {fields : Message}

/-- A field of one message that is not set yet. -/
theorem mergeOne_message_one (hkind : f.kind = .message name) (harity : f.arity = .one)
    (ht : s.message? name = some t) (hlength : body.length < 2 ^ 64)
    (hfresh : m.nested? f.number = none) (h : Reads (fieldStep (step t)) [] body fields)
    (rest : List UInt8) :
    mergeOne s type f .delimited (some step) m (delimit body ++ rest) =
      some (m.assign type f (.message fields), rest) := by
  simp only [mergeOne, hkind, ht, harity, delimited_delimit hlength, hfresh, Option.getD_none,
    Option.bind_eq_bind, Option.bind_some, if_true]
  exact congrArg (fun read => read.bind fun fields =>
    some (m.assign type f (.message fields), rest)) (h.untilEnd (Nat.le_refl _))

/-- One message more of a field that holds many. -/
theorem mergeOne_message_many (hkind : f.kind = .message name) (harity : f.arity = .many)
    (ht : s.message? name = some t) (hlength : body.length < 2 ^ 64)
    (h : Reads (fieldStep (step t)) [] body fields) (rest : List UInt8) :
    mergeOne s type f .delimited (some step) m (delimit body ++ rest) =
      some (m.extend f [.message fields], rest) := by
  simp only [mergeOne, hkind, ht, harity, delimited_delimit hlength, Option.bind_eq_bind,
    Option.bind_some, if_true]
  exact congrArg (fun read => read.bind fun fields =>
    some (m.extend f [.message fields], rest)) (h.untilEnd (Nat.le_refl _))

/-- One entry of a map. -/
theorem mergeOne_message_map (hkind : f.kind = .message name) (harity : f.arity = .map)
    (ht : s.message? name = some t) (hlength : body.length < 2 ^ 64)
    (h : Reads (fieldStep (step t)) [] body fields) {key : Key} {value : Value}
    (hentry : entryOf? t fields = some (key, value)) (rest : List UInt8) :
    mergeOne s type f .delimited (some step) m (delimit body ++ rest) =
      some (m.set f.number (.map (putEntry key value (m.entries f.number))), rest) := by
  simp only [mergeOne, hkind, ht, harity, delimited_delimit hlength, Option.bind_eq_bind,
    Option.bind_some]
  refine (congrArg (fun read => read.bind fun entry => (entryOf? t entry).bind fun e =>
    some (m.set f.number (.map (putEntry e.1 e.2 (m.entries f.number))), rest))
    (h.untilEnd (Nat.le_refl _))).trans ?_
  rw [Option.bind_some, hentry, Option.bind_some]

/-- Many values that stand together after one key. -/
theorem mergeOne_packed (hpackable : f.kind.isPackable = true) (harity : f.arity ≠ .one)
    {vs : List Value} (hlength : body.length < 2 ^ 64) (h : packed f.kind body = some vs)
    (nested : Option (MessageType → Nat → WireType → Message → Reader Message))
    (rest : List UInt8) :
    mergeOne s type f .delimited nested m (delimit body ++ rest) = some (m.extend f vs, rest) := by
  cases hkind : f.kind
  case message => rw [hkind] at hpackable; cases hpackable
  case group => rw [hkind] at hpackable; cases hpackable
  all_goals
    rw [hkind] at h hpackable
    simp only [mergeOne, hkind, harity, delimited_delimit hlength, h, hpackable, if_false,
      decide_true, Bool.and_self, if_true, Option.bind_eq_bind, Option.bind_some]
    rfl

/-- A value is never written as nothing. -/
theorem scalarBytes_ne_nil {kind : Kind} {v : Value} (h : kind.Holds v)
    (hsize : (scalarBytes kind v).length < 2 ^ 64) : scalarBytes kind v ≠ [] := by
  intro hnil
  have hread := scalar_scalarBytes h hsize []
  rw [hnil] at hread
  cases kind <;> cases hread

/-- One packed value, read before those that were read already. -/
def packedStep (kind : Kind) (vs : List Value) : Reader (List Value) := fun bs =>
  (scalar kind bs).map fun (v, bs) => (v :: vs, bs)

theorem packed_eq (kind : Kind) (bs : List UInt8) :
    packed kind bs = (untilEnd (packedStep kind) bs.length [] bs).map (·.reverse) :=
  rfl

theorem packed_flatMap {kind : Kind} {vs : List Value} (h : ∀ v ∈ vs, kind.Holds v)
    (hsize : (vs.flatMap (scalarBytes kind)).length < 2 ^ 64) :
    packed kind (vs.flatMap (scalarBytes kind)) = some vs := by
  have hreads (acc : List Value) :
      Reads (packedStep kind) acc (vs.flatMap (scalarBytes kind)) (vs.reverse ++ acc) := by
    induction vs generalizing acc with
    | nil => exact .done acc
    | cons v vs ih =>
      obtain ⟨hv, hvs⟩ := List.forall_mem_cons.1 h
      rw [List.flatMap_cons, List.length_append] at hsize
      have hfirst : (scalarBytes kind v).length < 2 ^ 64 := by omega
      rw [List.flatMap_cons, List.reverse_cons, List.append_assoc]
      refine .more (scalarBytes_ne_nil hv hfirst) (fun rest => ?_) (ih hvs (by omega) (v :: acc))
      rw [packedStep, scalar_scalarBytes hv hfirst]
      rfl
  rw [packed_eq, (hreads []).untilEnd (Nat.le_refl _), List.append_nil, Option.map_some,
    List.reverse_reverse]

theorem valueBytes_message {nested : MessageType → Message → List UInt8}
    (hkind : f.kind = .message name) (ht : s.message? name = some t) (fields : Message) :
    valueBytes s nested f (.message fields) =
      keyBytes f.number .delimited ++ delimit (nested t fields) := by
  simp only [valueBytes, hkind, ht]

theorem valueBytes_of_holds {nested : MessageType → Message → List UInt8} {v : Value}
    (h : f.kind.Holds v) :
    valueBytes s nested f v = keyBytes f.number f.kind.wireType ++ scalarBytes f.kind v := by
  cases hkind : f.kind
  case message => rw [hkind] at h; cases v <;> simp only [Kind.Holds] at h
  case group => rw [hkind] at h; cases v <;> simp only [Kind.Holds] at h
  all_goals simp only [valueBytes, hkind]

end Value

/-! ## One field -/

/-- The reader of messages that are nested one level down, with so many levels left. -/
def nestedReader (s : Schema) : Nat →
    Option (MessageType → Nat → WireType → Message → Reader Message)
  | 0 => none
  | levels + 1 => some (mergeField s levels)

/-- Messages nested one level down are read back. -/
def ReadsBack (s : Schema) (levels : Nat) : Prop :=
  ∀ name m, Message.Conforms s levels name m → ∃ t step, s.message? name = some t ∧
    nestedReader s levels = some step ∧ ((fieldBytes s levels t m).length < 2 ^ 64 →
      Reads (fieldStep (step t)) [] (fieldBytes s levels t m) m)

section Field

variable {s : Schema} {levels : Nat} {type : MessageType} {f : Field} {m : Message}

theorem mergeField_of_field? {number : Nat} (h : type.field? number = some f) (wire : WireType)
    (m : Message) (bs : List UInt8) :
    mergeField s levels type number wire m bs =
      mergeOne s type f wire (nestedReader s levels) m bs := by
  rw [mergeField.eq_def]
  simp only [h]
  cases levels <;> rfl

/-- A field that is known, its key before it. -/
theorem reads_keyBytes (hf : type.field? f.number = some f) (hnumber : IsFieldNumber f.number)
    {wire : WireType} {content : List UInt8} {m' : Message}
    (h : ∀ rest, mergeOne s type f wire (nestedReader s levels) m (content ++ rest) =
      some (m', rest)) :
    Reads (fieldStep (mergeField s levels type)) m (keyBytes f.number wire ++ content) m' := by
  have hkey := isKey_keyBytes hnumber wire
  refine .single (List.append_ne_nil_of_left_ne_nil (Varint.Spells.ne_nil hkey) _) fun rest => ?_
  rw [List.append_assoc, fieldStep_of_isKey hnumber hkey, mergeField_of_field? hf, h]

/-- One value of a field that is no map. -/
theorem reads_valueBytes (hback : ReadsBack s levels) (hf : type.field? f.number = some f)
    (hnumber : IsFieldNumber f.number) (harity : f.arity ≠ .map)
    (hfresh : f.arity = .one → m.nested? f.number = none) {v : Value}
    (hv : v.Fits (Message.Conforms s levels) f.kind)
    (hsize : (valueBytes s (fieldBytes s levels) f v).length < 2 ^ 64) :
    Reads (fieldStep (mergeField s levels type)) m (valueBytes s (fieldBytes s levels) f v)
      (if f.arity = .one then m.assign type f v else m.extend f [v]) := by
  rcases hv.message_or_holds with ⟨name, fields, hkind, rfl, hfields⟩ | hholds
  · obtain ⟨t, step, ht, hstep, hreads⟩ := hback name fields hfields
    rw [valueBytes_message hkind ht] at hsize ⊢
    have hlength : (fieldBytes s levels t fields).length < 2 ^ 64 := by
      simp only [delimit, List.length_append] at hsize
      omega
    refine reads_keyBytes hf hnumber fun rest => ?_
    rw [hstep]
    cases ha : f.arity with
    | one => exact mergeOne_message_one hkind ha ht hlength (hfresh ha) (hreads hlength) rest
    | many => exact mergeOne_message_many hkind ha ht hlength (hreads hlength) rest
    | map => exact absurd ha harity
  · rw [valueBytes_of_holds hholds] at hsize ⊢
    have hlength : (scalarBytes f.kind v).length < 2 ^ 64 := by
      rw [List.length_append] at hsize
      omega
    exact reads_keyBytes hf hnumber (mergeOne_of_holds hholds hlength _)

/-- The values of a field that holds many, each with its key, added to those before. -/
theorem reads_many (hback : ReadsBack s levels) (hf : type.field? f.number = some f)
    (hnumber : IsFieldNumber f.number) (harity : f.arity = .many) (hbelow : m.Below f.number)
    (old : List Value) {vs : List Value}
    (hvs : ∀ v ∈ vs, v.Fits (Message.Conforms s levels) f.kind)
    (hsize : (vs.flatMap (valueBytes s (fieldBytes s levels) f)).length < 2 ^ 64) :
    Reads (fieldStep (mergeField s levels type)) (m ++ [(f.number, .many old)])
      (vs.flatMap (valueBytes s (fieldBytes s levels) f)) (m ++ [(f.number, .many (old ++ vs))]) := by
  induction vs generalizing old with
  | nil =>
    rw [List.append_nil]
    exact .done _
  | cons v vs ih =>
    obtain ⟨hv, hvs⟩ := List.forall_mem_cons.1 hvs
    rw [List.flatMap_cons, List.length_append] at hsize
    rw [List.flatMap_cons]
    have hfirst := reads_valueBytes (m := m ++ [(f.number, .many old)]) hback hf hnumber
      (by simp [harity]) (by simp [harity]) hv (by omega)
    rw [if_neg (by simp [harity]), hbelow.extend_snoc old (List.cons_ne_nil _ _)] at hfirst
    have hrest := ih (old ++ [v]) hvs (by omega)
    rw [List.append_assoc] at hrest
    exact hfirst.trans hrest

/-- One entry of a map. -/
theorem reads_entry (hback : ReadsBack s levels) (hf : type.field? f.number = some f)
    (hnumber : IsFieldNumber f.number) (harity : f.arity = .map) {name : String}
    {key value : Kind} (hkind : f.kind = .message name)
    (hentry : s.message? name = some (.entry name key value)) {k : Key} {v : Value}
    (hk : key.Holds k.toValue) (hv : v.isDefault = true → v = value.default)
    (hnested : Message.Conforms s levels name (entryMessage k v))
    (hsize : (valueBytes s (fieldBytes s levels) f (.message (entryMessage k v))).length <
      2 ^ 64) :
    Reads (fieldStep (mergeField s levels type)) m
      (valueBytes s (fieldBytes s levels) f (.message (entryMessage k v)))
      (m.set f.number (.map (putEntry k v (m.entries f.number)))) := by
  obtain ⟨t, step, ht, hstep, hreads⟩ := hback name _ hnested
  obtain rfl : MessageType.entry name key value = t := Option.some.inj (hentry.symm.trans ht)
  rw [valueBytes_message hkind ht] at hsize ⊢
  have hlength : (fieldBytes s levels (.entry name key value) (entryMessage k v)).length <
      2 ^ 64 := by
    simp only [delimit, List.length_append] at hsize
    omega
  refine reads_keyBytes hf hnumber fun rest => ?_
  rw [hstep]
  exact mergeOne_message_map hkind harity ht hlength (hreads hlength) (entryOf?_entryMessage hk hv)
    rest

/-- The entries of a map, added to those before. -/
theorem reads_entries (hback : ReadsBack s levels) (hf : type.field? f.number = some f)
    (hnumber : IsFieldNumber f.number) (harity : f.arity = .map) (hbelow : m.Below f.number)
    {name : String} {key value : Kind} (hkind : f.kind = .message name)
    (hentry : s.message? name = some (.entry name key value)) (old : List (Key × Value))
    {es : List (Key × Value)} (hnodup : ((old ++ es).map (·.1)).Nodup)
    (hes : ∀ e ∈ es, key.Holds e.1.toValue ∧ (e.2.isDefault = true → e.2 = value.default) ∧
      Message.Conforms s levels name (entryMessage e.1 e.2))
    (hsize : (es.flatMap fun e =>
      valueBytes s (fieldBytes s levels) f (.message (entryMessage e.1 e.2))).length < 2 ^ 64) :
    Reads (fieldStep (mergeField s levels type)) (m ++ [(f.number, .map old)])
      (es.flatMap fun e => valueBytes s (fieldBytes s levels) f (.message (entryMessage e.1 e.2)))
      (m ++ [(f.number, .map (old ++ es))]) := by
  induction es generalizing old with
  | nil =>
    rw [List.append_nil]
    exact .done _
  | cons e es ih =>
    obtain ⟨⟨hk, hv, hnested⟩, hes⟩ := List.forall_mem_cons.1 hes
    rw [List.flatMap_cons, List.length_append] at hsize
    rw [List.flatMap_cons]
    have hfirst := reads_entry (m := m ++ [(f.number, .map old)]) hback hf hnumber harity hkind
      hentry hk hv hnested (by omega)
    have hnew : e.1 ∉ old.map (·.1) := by
      intro hmem
      rw [List.map_append, List.nodup_append] at hnodup
      exact hnodup.2.2 _ hmem _ (List.mem_map_of_mem List.mem_cons_self) rfl
    rw [hbelow.set_entries_snoc hnew] at hfirst
    have hrest := ih (old ++ [e]) (by rwa [List.append_assoc]) hes (by omega)
    rw [List.append_assoc] at hrest
    exact hfirst.trans hrest

/-- Everything that a field holds, read behind fields with smaller numbers. -/
theorem reads_contentBytes (hback : ReadsBack s levels) (hf : type.field? f.number = some f)
    (hnumber : IsFieldNumber f.number) (hbelow : m.Below f.number)
    (hapart : ∀ field ∈ m, ∀ g ∈ type.fields, g.number = field.1 → f.choice = g.choice →
      f.choice = none) {c : Content} (hc : c.Fits s (Message.Conforms s levels) f)
    (hsize : (contentBytes s (fieldBytes s levels) f c).length < 2 ^ 64) :
    Reads (fieldStep (mergeField s levels type)) m (contentBytes s (fieldBytes s levels) f c)
      (m ++ [(f.number, c)]) := by
  cases c with
  | one v =>
    obtain ⟨harity, hv, hkept⟩ := hc
    have hfresh : m.nested? f.number = none := by
      rw [Message.nested?, Message.one?, Message.get?_eq_none_of_notMem hbelow.notMem]
    have hread := reads_valueBytes hback hf hnumber (by simp [harity]) (fun _ => hfresh) hv hsize
    rwa [if_pos harity, hbelow.assign hapart hkept] at hread
  | many vs =>
    obtain ⟨harity, hne, hvs⟩ := hc
    simp only [contentBytes] at hsize ⊢
    split at hsize
    · next hpackable =>
      -- All values stand together after one key.
      rw [if_pos hpackable]
      have hholds : ∀ v ∈ vs, f.kind.Holds v := by
        intro v hv
        rcases (hvs v hv).message_or_holds with ⟨name, fields, hkind, -⟩ | h
        · rw [hkind] at hpackable
          cases hpackable
        · exact h
      simp only [delimit, List.length_append] at hsize
      have hlength : (vs.flatMap (scalarBytes f.kind)).length < 2 ^ 64 := by omega
      rw [← hbelow.extend hne]
      exact reads_keyBytes hf hnumber
        (mergeOne_packed hpackable (by simp [harity]) hlength (packed_flatMap hholds hlength) _)
    · next hpackable =>
      rw [if_neg hpackable]
      obtain ⟨v, vs, rfl⟩ := List.exists_cons_of_ne_nil hne
      obtain ⟨hv, hvs⟩ := List.forall_mem_cons.1 hvs
      rw [List.flatMap_cons, List.length_append] at hsize
      rw [List.flatMap_cons]
      have hfirst := reads_valueBytes (m := m) hback hf hnumber (by simp [harity])
        (by simp [harity]) hv (by omega)
      rw [if_neg (by simp [harity]), hbelow.extend (List.cons_ne_nil _ _)] at hfirst
      exact hfirst.trans (reads_many hback hf hnumber harity hbelow [v] hvs (by omega))
  | map es =>
    obtain ⟨harity, hne, hnodup, name, key, value, hkind, hentry, hes⟩ := hc
    obtain ⟨e, es, rfl⟩ := List.exists_cons_of_ne_nil hne
    obtain ⟨⟨hk, hv, hnested⟩, hes⟩ := List.forall_mem_cons.1 hes
    simp only [contentBytes, List.flatMap_cons, List.length_append] at hsize ⊢
    have hfirst := reads_entry (m := m) hback hf hnumber harity hkind hentry hk hv hnested
      (by omega)
    rw [hbelow.set_entries] at hfirst
    exact hfirst.trans
      (reads_entries hback hf hnumber harity hbelow hkind hentry [e] hnodup hes (by omega))

end Field

/-! ## Whole messages -/

/-- The bytes of one field of a message whose own messages may be so many levels deep. -/
def partBytes (s : Schema) (levels : Nat) (type : MessageType) (field : Nat × Content) :
    List UInt8 :=
  match type.field? field.1 with
  | some f => contentBytes s (fieldBytes s levels) f field.2
  | none => []

theorem fieldBytes_succ (s : Schema) (levels : Nat) (type : MessageType) (m : Message) :
    fieldBytes s (levels + 1) type m = m.flatMap (partBytes s levels type) := by
  rw [fieldBytes]
  rfl

theorem MessageType.field?_eq_some {t : MessageType} {number : Nat} {f : Field}
    (h : t.field? number = some f) : f ∈ t.fields ∧ f.number = number :=
  ⟨List.mem_of_find?_eq_some h, by simpa using List.find?_some h⟩

section Whole

variable {s : Schema} {levels : Nat} {t : MessageType}

/-- Each field is read behind those before it. -/
theorem Message.Fits.reads_partBytes {before after : Message} {field : Nat × Content}
    (h : Message.Fits s (Message.Conforms s levels) t (before ++ field :: after))
    (hback : ReadsBack s levels) (hsize : (partBytes s levels t field).length < 2 ^ 64) :
    Reads (fieldStep (mergeField s levels t)) before (partBytes s levels t field)
      (before ++ [field]) := by
  obtain ⟨hpairs, hfields⟩ := h
  obtain ⟨hnumber, f, hf, hc⟩ := hfields field (by simp)
  obtain ⟨number, c⟩ := field
  obtain ⟨hmem, hn⟩ := MessageType.field?_eq_some hf
  simp only [partBytes, hf] at hnumber hsize hc ⊢
  subst hn
  have hprecedes : ∀ g ∈ before, t.Precedes g.1 f.number := by
    intro g hg
    rw [List.map_append, List.pairwise_append] at hpairs
    exact hpairs.2.2 _ (List.mem_map_of_mem hg) _ (by simp)
  refine reads_contentBytes hback hf hnumber (fun g hg => (hprecedes g hg).1) ?_ hc hsize
  intro g hg other hother hnum hchoice
  rw [hchoice]
  exact (hprecedes g hg).2 other hother f hmem hnum rfl hchoice.symm

/-- The fields of a message, read one after the other. -/
theorem Message.Fits.reads_fieldBytes {m : Message}
    (h : m.Fits s (Message.Conforms s levels) t) (hback : ReadsBack s levels)
    (hsize : (fieldBytes s (levels + 1) t m).length < 2 ^ 64) :
    Reads (fieldStep (mergeField s levels t)) [] (fieldBytes s (levels + 1) t m) m := by
  rw [fieldBytes_succ] at hsize ⊢
  suffices hrun : ∀ before after, before ++ after = m →
      (after.flatMap (partBytes s levels t)).length < 2 ^ 64 →
      Reads (fieldStep (mergeField s levels t)) before (after.flatMap (partBytes s levels t)) m from
    hrun [] m rfl hsize
  intro before after hm hsize
  induction after generalizing before with
  | nil =>
    obtain rfl : before = m := by rwa [List.append_nil] at hm
    exact .done _
  | cons field after ih =>
    rw [List.flatMap_cons, List.length_append] at hsize
    rw [List.flatMap_cons]
    subst hm
    exact (h.reads_partBytes hback (by omega)).trans
      (ih (before ++ [field]) (List.append_assoc _ _ _) (by omega))

/-- Messages of every type and depth are read back. -/
theorem readsBack (s : Schema) (levels : Nat) : ReadsBack s levels := by
  induction levels with
  | zero => exact fun _ _ h => h.elim
  | succ levels ih =>
    rintro name m ⟨t, ht, hm⟩
    exact ⟨t, mergeField s levels, ht, rfl, hm.reads_fieldBytes ih⟩

/-- A message is read back from its bytes. -/
theorem decode?_encode {name : String} {m : Message} (ht : s.message? name = some t)
    (hm : m.Fits s (Message.Conforms s maxDepth) t)
    (hsize : (encode s name m).length < 2 ^ 64) : decode? s name (encode s name m) = some m := by
  simp only [encode, ht] at hsize ⊢
  have hreads := hm.reads_fieldBytes (readsBack s maxDepth) hsize
  simp only [decode?, ht, Option.bind_eq_bind, Option.bind_some]
  exact hreads.untilEnd (Nat.le_refl _)

end Whole

end AuthGate.Proto
