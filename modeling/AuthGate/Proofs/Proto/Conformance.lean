import AuthGate.Proofs.Proto.Fields
import AuthGate.Proofs.Proto.Scalar

set_option autoImplicit false

/-! # Messages of a type

Which messages a type allows, and how deep they may be nested: every field that is set is one of the
type's and holds what its kind allows, fields come by rising number, at most one member of a choice
is set, and nothing is set that a reader would drop. -/

namespace AuthGate.Proto

/-- The numbers that fields may have. -/
def IsFieldNumber (number : Nat) : Prop := 0 < number ∧ number < 2 ^ 29

instance (number : Nat) : Decidable (IsFieldNumber number) :=
  inferInstanceAs (Decidable (_ ∧ _))

/-- A field with the first number may stand before one with the second: it has the smaller number,
    and the two belong to no common choice. -/
def MessageType.Precedes (t : MessageType) (number next : Nat) : Prop :=
  number < next ∧ ∀ f ∈ t.fields, ∀ g ∈ t.fields, f.number = number → g.number = next →
    f.choice = g.choice → f.choice = none

instance (t : MessageType) (number next : Nat) : Decidable (t.Precedes number next) :=
  inferInstanceAs (Decidable (_ ∧ _))

/-- A value that a kind allows; `Nested` says which messages there may be one level down. -/
def Value.Fits (Nested : String → Message → Prop) : Kind → Value → Prop
  | .message name, .message fields => Nested name fields
  | kind, v => kind.Holds v

theorem Value.Fits.message_or_holds {Nested : String → Message → Prop} {kind : Kind} {v : Value}
    (h : v.Fits Nested kind) :
    (∃ name fields, kind = .message name ∧ v = .message fields ∧ Nested name fields) ∨
      kind.Holds v := by
  cases kind <;> cases v <;> simp_all [Value.Fits]

/-- What a field may hold when it is set. A field without presence holds no default; the value of a
    map's entry may be left out, if it is the default that a reader puts in its place. -/
def Content.Fits (s : Schema) (Nested : String → Message → Prop) (f : Field) : Content → Prop
  | .one v => f.arity = .one ∧ v.Fits Nested f.kind ∧ (f.presence = true ∨ v.isDefault = false)
  | .many vs => f.arity = .many ∧ vs ≠ [] ∧ ∀ v ∈ vs, v.Fits Nested f.kind
  | .map entries => f.arity = .map ∧ entries ≠ [] ∧ (entries.map (·.1)).Nodup ∧
    ∃ type key value, f.kind = .message type ∧ s.message? type = some (.entry type key value) ∧
      ∀ e ∈ entries, key.Holds e.1.toValue ∧ (e.2.isDefault = true → e.2 = value.default) ∧
        Nested type (entryMessage e.1 e.2)

/-- A key that is left out is the one that a reader puts in its place. -/
theorem Key.toValue_eq_default {kind : Kind} {k : Key} (h : kind.Holds k.toValue)
    (hdefault : k.toValue.isDefault = true) : k.toValue = kind.default := by
  cases k with
  | bool b =>
    cases kind <;> simp only [Key.toValue, Kind.Holds] at h
    cases b with
    | false => rfl
    | true => cases hdefault
  | int i =>
    have hzero : i = 0 := by simpa [Key.toValue, Value.isDefault] using hdefault
    cases kind <;> simp only [Key.toValue, Kind.Holds] at h <;> rw [hzero] <;> rfl
  | text s =>
    cases kind <;> simp only [Key.toValue, Kind.Holds] at h
    have hempty : s = "" := by simpa [Key.toValue, Value.isDefault] using hdefault
    rw [hempty]
    rfl

theorem Key.ofValue?_toValue (k : Key) : ofValue? k.toValue = some k := by
  cases k <;> rfl

theorem one?_entryMessage_key (k : Key) (v : Value) :
    (entryMessage k v).one? 1 = if k.toValue.isDefault then none else some k.toValue := by
  by_cases hk : k.toValue.isDefault = true <;> by_cases hv : v.isDefault = true <;>
    simp [entryMessage, Message.one?, Message.get?, hk, hv]

theorem one?_entryMessage_value (k : Key) (v : Value) :
    (entryMessage k v).one? 2 = if v.isDefault then none else some v := by
  by_cases hk : k.toValue.isDefault = true <;> by_cases hv : v.isDefault = true <;>
    simp [entryMessage, Message.one?, Message.get?, hk, hv]

/-- What an entry's message says is the entry. -/
theorem entryOf?_entryMessage {type : String} {key value : Kind} {k : Key} {v : Value}
    (hk : key.Holds k.toValue) (hv : v.isDefault = true → v = value.default) :
    entryOf? (.entry type key value) (entryMessage k v) = some (k, v) := by
  obtain ⟨g, hg, hkind⟩ : ∃ g, (MessageType.entry type key value).field? 2 = some g ∧
      g.kind = value := by
    cases value <;> exact ⟨_, rfl, rfl⟩
  have hkey : ((entryMessage k v).one? 1).getD key.default = k.toValue := by
    rw [one?_entryMessage_key]
    split
    · next hd => exact (Key.toValue_eq_default hk hd).symm
    · rfl
  have hvalue : ((entryMessage k v).one? 2).getD g.kind.default = v := by
    rw [one?_entryMessage_value, hkind]
    split
    · next hd => exact (hv hd).symm
    · rfl
  have hfirst : (MessageType.entry type key value).field? 1 = some (.single 1 "key" key) := rfl
  simp only [entryOf?, hfirst, hg, Option.bind_eq_bind, Option.bind_some, hvalue]
  rw [show (Field.single 1 "key" key).kind = key from rfl, hkey, Key.ofValue?_toValue]
  rfl

/-- A message of a type. -/
def Message.Fits (s : Schema) (Nested : String → Message → Prop) (t : MessageType)
    (m : Message) : Prop :=
  (m.map (·.1)).Pairwise t.Precedes ∧ ∀ field ∈ m, IsFieldNumber field.1 ∧
    ∃ f, t.field? field.1 = some f ∧ field.2.Fits s Nested f

/-- A message of a type that is at most so many levels of messages deep, itself counted. -/
def Message.Conforms (s : Schema) : Nat → String → Message → Prop
  | 0, _, _ => False
  | levels + 1, name, m => ∃ t, s.message? name = some t ∧ m.Fits s (Conforms s levels) t

end AuthGate.Proto
