import AuthGate.Proofs.Proto.Extent
import AuthGate.Proto.Json

set_option autoImplicit false

/-! # Which messages have a form in JSON

If no type of a schema has a form of its own, every message has one (`exists_toJson?`). Where values
of named types are opened, what stands in one of them is opened in the same way, however many of
them stand inside each other (`AnyValue.toJson?_eq`). -/

namespace AuthGate

namespace Proto

variable {s : Schema}

/-! ## Types without a form of their own -/

/-- No message type of the schema has a form of its own. -/
def Schema.Ordinary (s : Schema) : Prop :=
  ∀ type ∈ s.messages, WellKnown.ofName? type.name = none

theorem mem_messages_of_messageType? {kind : Kind} {type : MessageType}
    (h : kind.messageType? s = some type) : type ∈ s.messages := by
  cases kind with
  | message | group => exact List.mem_of_find?_eq_some h
  | _ => cases h

section Ordinary

variable {opened? : AnyValue → Option AuthGate.Json}

mutual

theorem Value.exists_toJson? (h : s.Ordinary) (kind : Kind) (v : Value) :
    ∃ form, v.toJson? s opened? kind = some form := by
  cases v with
  | message fields =>
    rw [Value.toJson?]
    cases htype : kind.messageType? s with
    | none => exact ⟨_, rfl⟩
    | some type =>
      obtain ⟨forms, hforms⟩ := exists_fieldsToJson? h type fields
      refine ⟨.ofFields forms, ?_⟩
      simp only [messageForm?, h type (mem_messages_of_messageType? htype), hforms, Option.map_some]
  | bool | int | double | single | text | bytes => exact ⟨_, rfl⟩

theorem Content.exists_toJson? (h : s.Ordinary) (kind : Kind) (c : Content) :
    ∃ form, c.toJson? s opened? kind = some form := by
  cases c with
  | one v => exact v.exists_toJson? h kind
  | many vs =>
    obtain ⟨forms, hforms⟩ := exists_valuesToJson? h kind vs
    exact ⟨.array forms, by rw [Content.toJson?, hforms, Option.map_some]⟩
  | map entries =>
    obtain ⟨forms, hforms⟩ := exists_entriesToJson? h kind entries
    exact ⟨.ofFields forms, by rw [Content.toJson?, hforms, Option.map_some]⟩

theorem exists_valuesToJson? (h : s.Ordinary) (kind : Kind) (vs : List Value) :
    ∃ forms, valuesToJson? s opened? kind vs = some forms := by
  cases vs with
  | nil => exact ⟨[], rfl⟩
  | cons v rest =>
    obtain ⟨form, hform⟩ := v.exists_toJson? h kind
    obtain ⟨forms, hforms⟩ := exists_valuesToJson? h kind rest
    exact ⟨form :: forms, by rw [valuesToJson?, hform, hforms]; rfl⟩

theorem exists_entriesToJson? (h : s.Ordinary) (kind : Kind) (entries : List (Key × Value)) :
    ∃ forms, entriesToJson? s opened? kind entries = some forms := by
  cases entries with
  | nil => exact ⟨[], rfl⟩
  | cons e rest =>
    obtain ⟨k, v⟩ := e
    obtain ⟨form, hform⟩ := v.exists_toJson? h kind
    obtain ⟨forms, hforms⟩ := exists_entriesToJson? h kind rest
    exact ⟨(k.render, form) :: forms, by rw [entriesToJson?, hform, hforms]; rfl⟩

theorem exists_fieldsToJson? (h : s.Ordinary) (type : MessageType) (fields : Message) :
    ∃ forms, fieldsToJson? s opened? type fields = some forms := by
  cases fields with
  | nil => exact ⟨[], rfl⟩
  | cons field rest =>
    obtain ⟨number, c⟩ := field
    obtain ⟨forms, hforms⟩ := exists_fieldsToJson? h type rest
    rw [fieldsToJson?]
    split
    · next f hf =>
      obtain ⟨form, hform⟩ := c.exists_toJson? h (valueKind s f)
      exact ⟨(f.jsonName, form) :: forms, by rw [hform, hforms]; rfl⟩
    · exact ⟨forms, hforms⟩

end

end Ordinary

/-- Without types that have a form of their own every message has a form. -/
theorem Message.exists_toJson? (h : s.Ordinary) {type : MessageType} (htype : type ∈ s.messages)
    (m : Message) : ∃ form, m.toJson? s type = some form := by
  obtain ⟨forms, hforms⟩ : ∃ forms, fieldsToJson? s (AnyValue.toJson? s) type m = some forms :=
    exists_fieldsToJson? h type m
  exact ⟨.ofFields forms, by simp only [Message.toJson?, messageForm?, h type htype, hforms,
    Option.map_some]⟩

/-! ## Values of named types -/

section Congruence

variable {f g : AnyValue → Option AuthGate.Json} {n : Nat}

theorem WellKnown.form?_congr (h : ∀ a : AnyValue, a.value.length ≤ n → f a = g a) {m : Message}
    (hm : m.longest ≤ n) (w : WellKnown) : w.form? s f m = w.form? s g m := by
  cases w with
  | any => exact h (.ofMessage m) (Message.length_bytes_le hm)
  | _ => rfl

mutual

/-- The form of a value depends only on those of the values of named types that stand in it. -/
theorem Value.toJson?_congr (h : ∀ a : AnyValue, a.value.length ≤ n → f a = g a) (kind : Kind)
    (v : Value) (hv : v.longest ≤ n) : v.toJson? s f kind = v.toJson? s g kind := by
  cases v with
  | message fields =>
    rw [Value.toJson?, Value.toJson?]
    cases kind.messageType? s with
    | none => rfl
    | some type =>
      simp only [messageForm?, fieldsToJson?_congr h type fields hv, WellKnown.form?_congr h hv]
  | bool | int | double | single | text | bytes => rfl

theorem Content.toJson?_congr (h : ∀ a : AnyValue, a.value.length ≤ n → f a = g a) (kind : Kind)
    (c : Content) (hc : c.longest ≤ n) : c.toJson? s f kind = c.toJson? s g kind := by
  cases c with
  | one v => exact v.toJson?_congr h kind hc
  | many vs => rw [Content.toJson?, Content.toJson?, valuesToJson?_congr h kind vs hc]
  | map entries => rw [Content.toJson?, Content.toJson?, entriesToJson?_congr h kind entries hc]

theorem valuesToJson?_congr (h : ∀ a : AnyValue, a.value.length ≤ n → f a = g a) (kind : Kind)
    (vs : List Value) (hvs : valuesLongest vs ≤ n) :
    valuesToJson? s f kind vs = valuesToJson? s g kind vs := by
  cases vs with
  | nil => rfl
  | cons v rest =>
    obtain ⟨hv, hrest⟩ := Nat.max_le.1 hvs
    rw [valuesToJson?, valuesToJson?, v.toJson?_congr h kind hv, valuesToJson?_congr h kind rest hrest]

theorem entriesToJson?_congr (h : ∀ a : AnyValue, a.value.length ≤ n → f a = g a) (kind : Kind)
    (entries : List (Key × Value)) (hentries : entriesLongest entries ≤ n) :
    entriesToJson? s f kind entries = entriesToJson? s g kind entries := by
  cases entries with
  | nil => rfl
  | cons e rest =>
    obtain ⟨k, v⟩ := e
    obtain ⟨hv, hrest⟩ := Nat.max_le.1 hentries
    rw [entriesToJson?, entriesToJson?, v.toJson?_congr h kind hv,
      entriesToJson?_congr h kind rest hrest]

theorem fieldsToJson?_congr (h : ∀ a : AnyValue, a.value.length ≤ n → f a = g a)
    (type : MessageType) (fields : Message) (hfields : fields.longest ≤ n) :
    fieldsToJson? s f type fields = fieldsToJson? s g type fields := by
  cases fields with
  | nil => rfl
  | cons field rest =>
    obtain ⟨number, c⟩ := field
    obtain ⟨hc, hrest⟩ := Nat.max_le.1 hfields
    rw [fieldsToJson?, fieldsToJson?, fieldsToJson?_congr h type rest hrest]
    cases type.field? number with
    | none => rfl
    | some field => simp only [c.toJson?_congr h (valueKind s field) hc]

end

theorem namedForm?_congr (h : ∀ a : AnyValue, a.value.length ≤ n → f a = g a) (url : String)
    (type : MessageType) {m : Message} (hm : m.longest ≤ n) :
    namedForm? s f url type m = namedForm? s g url type m := by
  simp only [namedForm?, fieldsToJson?_congr h type m hm, WellKnown.form?_congr h hm]

end Congruence

/-- What stands in the bytes of a value is the same in any form that is right for all shorter values
    and for those that name no type. -/
theorem namedForm?_merge_congr {f g : AnyValue → Option AuthGate.Json} {bs : List UInt8}
    (hnone : ∀ a : AnyValue, a.typeName? = none → f a = g a)
    (h : ∀ a : AnyValue, a.value.length < bs.length → f a = g a) (url : String)
    {type : MessageType} {m : Message} (hm : merge s type [] bs = some m) :
    namedForm? s f url type m = namedForm? s g url type m := by
  cases bs with
  | nil =>
    cases hm
    -- nothing stands in it, not even a name where one is expected
    have hform : ∀ w : WellKnown, w.form? s f [] = w.form? s g [] := by
      intro w
      cases w with
      | any => exact hnone _ rfl
      | _ => rfl
    simp only [namedForm?, hform, fieldsToJson?]
  | cons b bs =>
    refine namedForm?_congr (n := bs.length) (fun a ha => h a (Nat.lt_succ_of_le ha)) url type ?_
    exact longest_merge_le hm (Nat.zero_le _) (Nat.le_refl _)

theorem openWithin?_of_typeName? {a : AnyValue} (h : a.typeName? = none) (depth : Nat) :
    openWithin? s depth a = none := by
  cases depth with
  | zero => rfl
  | succ depth => rw [openWithin?, h]; rfl

/-- There are no more levels of values inside a value than it has bytes. -/
theorem openWithin?_eq_toJson? {a : AnyValue} {depth : Nat} (h : a.value.length < depth) :
    openWithin? s depth a = a.toJson? s := by
  rw [AnyValue.toJson?]
  generalize hlevels : a.value.length + 1 = levels
  have hlt : a.value.length < levels := hlevels ▸ Nat.lt_succ_self _
  clear hlevels
  induction depth generalizing a levels with
  | zero => exact absurd h (Nat.not_lt_zero _)
  | succ depth ih =>
    cases levels with
    | zero => exact absurd hlt (Nat.not_lt_zero _)
    | succ levels =>
      rw [openWithin?, openWithin?]
      refine congrArg _ (funext fun name => congrArg _ (funext fun type => ?_))
      cases hm : merge s type [] a.value with
      | none => rfl
      | some m =>
        refine namedForm?_merge_congr (fun b hb => ?_) (fun b hb => ?_) a.typeUrl hm
        · rw [openWithin?_of_typeName? hb, openWithin?_of_typeName? hb]
        · exact ih (by omega) levels (by omega)

end Proto

/-- A value whose type is named is opened if its type is known and its bytes are a message of it;
    the values of named types in that message are opened in the same way. -/
theorem AnyValue.toJson?_eq (s : Proto.Schema) (a : AnyValue) : a.toJson? s = (do
    let name ← a.typeName?
    let type ← s.message? name
    let m ← Proto.merge s type [] a.value
    Proto.namedForm? s (AnyValue.toJson? s) a.typeUrl type m) := by
  rw [AnyValue.toJson?, Proto.openWithin?]
  refine congrArg _ (funext fun name => congrArg _ (funext fun type => ?_))
  cases hm : Proto.merge s type [] a.value with
  | none => rfl
  | some m =>
    refine Proto.namedForm?_merge_congr (fun b hb => ?_) (fun b hb => ?_) a.typeUrl hm
    · rw [Proto.openWithin?_of_typeName? hb, AnyValue.toJson?, Proto.openWithin?_of_typeName? hb]
    · exact Proto.openWithin?_eq_toJson? hb

end AuthGate
