import AuthGate.Proofs.Proto.RoundTrip

set_option autoImplicit false

/-! # Fields that a type does not have

A sender of a newer schema may write fields that the reader's type does not have. Wherever they stand
between the fields of a message, they are passed over: `decode?_padded`. -/

namespace AuthGate.Proto

/-! ## Fields -/

/-- The bytes are a field with a number, of any of the layouts but groups: the key and what follows
    may be spelled in more groups than they need. -/
inductive IsField (number : Nat) : List UInt8 → Prop
  | varint {key body : List UInt8} {n : Nat} (hkey : IsKey number .varint key)
    (hbody : Varint.IsVarint body n) : IsField number (key ++ body)
  | eight {key body : List UInt8} (hkey : IsKey number .eight key) (hbody : body.length = 8) :
    IsField number (key ++ body)
  | delimited {key length body : List UInt8} (hkey : IsKey number .delimited key)
    (hlength : Varint.IsVarint length body.length) : IsField number (key ++ (length ++ body))
  | four {key body : List UInt8} (hkey : IsKey number .four key) (hbody : body.length = 4) :
    IsField number (key ++ body)

/-- Behind the key of a field stands what its wire type says. -/
theorem IsField.exists_skip {number : Nat} {bs : List UInt8} (h : IsField number bs) :
    ∃ wire key body, bs = key ++ body ∧ IsKey number wire key ∧
      ∀ depth rest, skip (depth + 1) number wire (body ++ rest) = some rest := by
  cases h with
  | varint hkey hbody =>
    refine ⟨_, _, _, rfl, hkey, fun depth rest => ?_⟩
    rw [skip, Varint.decode_of_isVarint hbody]
    rfl
  | eight hkey hbody =>
    refine ⟨_, _, _, rfl, hkey, fun depth rest => ?_⟩
    rw [skip, ← hbody, take?_append]
    rfl
  | delimited hkey hlength =>
    refine ⟨_, _, _, rfl, hkey, fun depth rest => ?_⟩
    rw [skip, delimited_of_isVarint hlength]
    rfl
  | four hkey hbody =>
    refine ⟨_, _, _, rfl, hkey, fun depth rest => ?_⟩
    rw [skip, ← hbody, take?_append]
    rfl

theorem IsField.ne_nil {number : Nat} {bs : List UInt8} (h : IsField number bs) : bs ≠ [] := by
  obtain ⟨wire, key, body, rfl, hkey, -⟩ := h.exists_skip
  exact List.append_ne_nil_of_left_ne_nil (Varint.Spells.ne_nil hkey) _

/-- What stands after the first field. -/
def afterField (bs : List UInt8) : Option (List UInt8) :=
  (fieldKey bs).bind fun ((n, wire), bs) => skip 1 n wire bs

/-- Bytes begin with one field at most. -/
theorem IsField.unique {number number' : Nat} {p q x y : List UInt8} (hp : IsField number p)
    (hq : IsField number' q) (hnumber : IsFieldNumber number) (hnumber' : IsFieldNumber number')
    (h : p ++ x = q ++ y) : p = q ∧ x = y := by
  have hafter {n : Nat} {bs : List UInt8} (hbs : IsField n bs) (hn : IsFieldNumber n)
      (rest : List UInt8) : afterField (bs ++ rest) = some rest := by
    obtain ⟨wire, key, body, rfl, hkey, hskip⟩ := hbs.exists_skip
    simp only [afterField, List.append_assoc, fieldKey_of_isKey hn hkey, Option.bind_some]
    exact hskip 0 rest
  have hrest : x = y := by
    have hx := hafter hp hnumber x
    rw [h, hafter hq hnumber' y] at hx
    exact (Option.some.inj hx).symm
  subst hrest
  exact ⟨List.append_cancel_right h, rfl⟩

/-- The bytes are so many fields, one after the other. -/
structure Consists (fields : List (List UInt8)) (bs : List UInt8) : Prop where
  flatten_eq : fields.flatten = bs
  isField : ∀ field ∈ fields, ∃ number, IsFieldNumber number ∧ IsField number field

/-- In one way only. -/
theorem Consists.unique {fields fields' : List (List UInt8)} {bs : List UInt8}
    (h : Consists fields bs) (h' : Consists fields' bs) : fields = fields' := by
  induction fields generalizing fields' bs with
  | nil =>
    cases fields' with
    | nil => rfl
    | cons field fields' =>
      obtain ⟨number, -, hfield⟩ := h'.isField field List.mem_cons_self
      have hnil := h'.flatten_eq.trans h.flatten_eq.symm
      exact absurd (List.append_eq_nil_iff.1 hnil).1 hfield.ne_nil
  | cons field fields ih =>
    obtain ⟨hnumber, hrest⟩ := List.forall_mem_cons.1 h.isField
    obtain ⟨number, hnumber, hfield⟩ := hnumber
    cases fields' with
    | nil =>
      have hnil := h.flatten_eq.trans h'.flatten_eq.symm
      exact absurd (List.append_eq_nil_iff.1 hnil).1 hfield.ne_nil
    | cons field' fields' =>
      obtain ⟨⟨number', hnumber', hfield'⟩, hrest'⟩ := List.forall_mem_cons.1 h'.isField
      obtain ⟨rfl, hbytes⟩ := hfield.unique hfield' hnumber hnumber'
        (h.flatten_eq.trans h'.flatten_eq.symm)
      rw [ih ⟨hbytes, hrest⟩ ⟨rfl, hrest'⟩]

/-! ## Fields between fields -/

/-- Fields with any number of others before, between and after them whose numbers are not known. -/
inductive Padded (known : List Nat) : List (List UInt8) → List UInt8 → Prop
  | done : Padded known [] []
  | own {field bs : List UInt8} {fields : List (List UInt8)} (hrest : Padded known fields bs) :
    Padded known (field :: fields) (field ++ bs)
  | other {number : Nat} {field bs : List UInt8} {fields : List (List UInt8)}
    (hnumber : IsFieldNumber number) (hknown : number ∉ known) (hfield : IsField number field)
    (hrest : Padded known fields bs) : Padded known fields (field ++ bs)

/-- Nothing need stand between them. -/
theorem Padded.flatten (known : List Nat) (fields : List (List UInt8)) :
    Padded known fields fields.flatten := by
  induction fields with
  | nil => exact .done
  | cons field fields ih => exact .own ih

section Reading

variable {s : Schema} {name : String} {t : MessageType} {m : Message} {levels : Nat}

theorem MessageType.field?_eq_none {number : Nat} (h : number ∉ t.fields.map (·.number)) :
    t.field? number = none := by
  rw [field?, List.find?_eq_none]
  intro f hf hnumber
  exact h (List.mem_map.2 ⟨f, hf, by simpa using hnumber⟩)

/-- A field that the type does not have leaves the message as it is. -/
theorem IsField.reads {number : Nat} {bs : List UInt8} (h : IsField number bs)
    (hnumber : IsFieldNumber number) (hunknown : t.field? number = none) (m : Message) :
    Reads (fieldStep (mergeField s (levels + 1) t)) m bs m := by
  refine .single h.ne_nil fun rest => ?_
  obtain ⟨wire, key, body, rfl, hkey, hskip⟩ := h.exists_skip
  rw [List.append_assoc, fieldStep_of_isKey hnumber hkey, mergeField.eq_def]
  simp only [hunknown, hskip]
  rfl

theorem Padded.reads {before after : Message} {bs : List UInt8}
    (h : Padded (t.fields.map (·.number)) (after.map (partBytes s (levels + 1) t)) bs)
    (hm : Message.Fits s (Message.Conforms s (levels + 1)) t (before ++ after))
    (hsize : (fieldBytes s (levels + 1 + 1) t after).length < 2 ^ 64) :
    Reads (fieldStep (mergeField s (levels + 1) t)) before bs (before ++ after) := by
  generalize hparts : after.map (partBytes s (levels + 1) t) = parts at h
  induction h generalizing before after with
  | done =>
    rw [List.map_eq_nil_iff.1 hparts, List.append_nil]
    exact .done _
  | own _ ih =>
    obtain ⟨field, after, rfl, rfl, rfl⟩ := List.map_eq_cons_iff.1 hparts
    rw [fieldBytes_succ, List.flatMap_cons, List.length_append, ← fieldBytes_succ] at hsize
    have hfirst := hm.reads_partBytes (readsBack s (levels + 1)) (by omega)
    rw [List.append_cons] at hm ⊢
    exact hfirst.trans (ih hm (by omega) rfl)
  | other hnumber hknown hfield _ ih =>
    have hunknown := MessageType.field?_eq_none hknown
    exact (hfield.reads hnumber hunknown before).trans (ih hm hsize hparts)

/-- In a type whose fields each hold one message, a field is one field on the wire. -/
theorem isField_partBytes (hm : m.Fits s (Message.Conforms s levels) t)
    (honly : ∀ f ∈ t.fields, f.arity = .one ∧ ∃ name, f.kind = .message name)
    (hsize : (fieldBytes s (levels + 1) t m).length < 2 ^ 64) :
    ∀ field ∈ m, IsFieldNumber field.1 ∧ IsField field.1 (partBytes s levels t field) := by
  rintro ⟨number, c⟩ hfield
  obtain ⟨hnumber, f, hf, hc⟩ := hm.2 _ hfield
  refine ⟨hnumber, ?_⟩
  obtain ⟨hmem, hn⟩ := MessageType.field?_eq_some hf
  obtain ⟨harity, type, hkind⟩ := honly f hmem
  have hpart : (partBytes s levels t (number, c)).length < 2 ^ 64 := by
    rw [fieldBytes_succ, List.flatMap_def] at hsize
    have hsublist := List.sublist_flatten_of_mem
      (List.mem_map_of_mem (f := partBytes s levels t) hfield)
    exact Nat.lt_of_le_of_lt hsublist.length_le hsize
  simp only [partBytes, hf] at hpart ⊢
  cases c with
  | one v =>
    obtain ⟨-, hv, -⟩ := hc
    rcases hv.message_or_holds with ⟨type', fields, hkind', rfl, hfields⟩ | hholds
    · obtain ⟨t', step, ht', -⟩ := readsBack s levels type' fields hfields
      simp only [contentBytes] at hpart ⊢
      rw [valueBytes_message hkind' ht'] at hpart ⊢
      subst hn
      refine .delimited (isKey_keyBytes hnumber _) (Varint.isVarint_encode ?_)
      simp only [delimit, List.length_append] at hpart
      omega
    · rw [hkind] at hholds
      cases v <;> simp only [Kind.Holds] at hholds
  | many vs => cases harity.symm.trans hc.1
  | map es => cases harity.symm.trans hc.1

/-- The bytes of such a message consist of its fields. -/
theorem consists_partBytes (hm : m.Fits s (Message.Conforms s levels) t)
    (honly : ∀ f ∈ t.fields, f.arity = .one ∧ ∃ name, f.kind = .message name)
    (hsize : (fieldBytes s (levels + 1) t m).length < 2 ^ 64) :
    Consists (m.map (partBytes s levels t)) (fieldBytes s (levels + 1) t m) := by
  refine ⟨by rw [fieldBytes_succ, List.flatMap_def], fun part hpart => ?_⟩
  obtain ⟨field, hfield, rfl⟩ := List.mem_map.1 hpart
  exact ⟨field.1, isField_partBytes hm honly hsize field hfield⟩

/-- A message whose type has only fields of one message is read back from its fields, whatever other
    fields stand between them. -/
theorem decode?_padded (ht : s.message? name = some t)
    (hm : m.Fits s (Message.Conforms s maxDepth) t)
    (honly : ∀ f ∈ t.fields, f.arity = .one ∧ ∃ name, f.kind = .message name)
    (hsize : (encode s name m).length < 2 ^ 64) {fields : List (List UInt8)} {bs : List UInt8}
    (hfields : Consists fields (encode s name m))
    (h : Padded (t.fields.map (·.number)) fields bs) : decode? s name bs = some m := by
  simp only [encode, ht] at hsize hfields
  rw [hfields.unique (consists_partBytes hm honly hsize)] at h
  have hreads : Reads (fieldStep (mergeField s (99 + 1) t)) [] bs ([] ++ m) := h.reads hm hsize
  simp only [decode?, ht, Option.bind_eq_bind, Option.bind_some]
  exact hreads.untilEnd (Nat.le_refl _)

end Reading

end AuthGate.Proto
