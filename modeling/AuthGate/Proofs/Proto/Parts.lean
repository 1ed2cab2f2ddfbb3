import AuthGate.Proofs.Proto.Conformance

set_option autoImplicit false

/-! # Messages made of parts

A message is made by setting its parts one after the other, each of which may be nothing. A message
made so is one of its type, and what a part says is found in the whole. -/

namespace AuthGate.Proto.Message

/-! ## One part -/

/-- The part of a message that one field is, if it is set. -/
def part (number : Nat) : Option Content → Message
  | none => []
  | some c => [(number, c)]

section Part

variable (n : Nat)

@[simp] theorem ofText_eq_part (text : String) :
    ofText n text = part n (if text.isEmpty then none else some (.one (.text text))) := by
  rw [ofText]
  split <;> rfl

@[simp] theorem ofInt_eq_part (i : Int) :
    ofInt n i = part n (if i = 0 then none else some (.one (.int i))) := by
  rw [ofInt]
  split <;> rfl

@[simp] theorem ofBool_eq_part (b : Bool) :
    ofBool n b = part n (if b then some (.one (.bool b)) else none) := by
  rw [ofBool]
  split <;> rfl

@[simp] theorem ofBytes_eq_part (bs : List UInt8) :
    ofBytes n bs = part n (if bs.isEmpty then none else some (.one (.bytes bs))) := by
  rw [ofBytes]
  split <;> rfl

@[simp] theorem ofNested_eq_part (o : Option Message) :
    ofNested n o = part n (o.map fun m => .one (.message m)) := by
  cases o <;> rfl

@[simp] theorem ofMany_eq_part (ms : List Message) :
    ofMany n ms = part n (if ms.isEmpty then none else some (.many (ms.map .message))) := by
  rw [ofMany]
  split <;> rfl

@[simp] theorem get?_part_self (o : Option Content) : get? n (part n o) = o := by
  cases o <;> simp [part, get?]

variable {n}

@[simp] theorem get?_part_of_ne {k : Nat} (h : n ≠ k) (o : Option Content) :
    get? k (part n o) = none := by
  cases o <;> simp [part, get?, h]

end Part

/-! ## Made messages are of their type -/

/-- A part of a message of a type: its fields are, in this order, some of those with the numbers, and
    each holds what the type allows. -/
structure Among (s : Schema) (Nested : String → Message → Prop) (t : MessageType)
    (numbers : List Nat) (m : Message) : Prop where
  sublist : (m.map (·.1)).Sublist numbers
  fits : ∀ field ∈ m, ∃ f, t.field? field.1 = some f ∧ field.2.Fits s Nested f

section Among

variable {s : Schema} {Nested : String → Message → Prop} {t : MessageType} {n : Nat}
  {name type : String}

/-- A part that is the whole is a message of the type. -/
theorem Among.toFits {numbers : List Nat} {m : Message} (h : m.Among s Nested t numbers)
    (hnumbers : ∀ n ∈ numbers, IsFieldNumber n) (horder : numbers.Pairwise t.Precedes) :
    m.Fits s Nested t :=
  ⟨horder.sublist h.sublist, fun field hfield =>
    ⟨hnumbers _ (h.sublist.subset (List.mem_map_of_mem hfield)), h.fits field hfield⟩⟩

theorem Among.append {numbers numbers' : List Nat} {p q : Message}
    (hp : p.Among s Nested t numbers) (hq : q.Among s Nested t numbers') :
    Among s Nested t (numbers ++ numbers') (p ++ q) where
  sublist := by
    rw [List.map_append]
    exact hp.sublist.append hq.sublist
  fits field hfield := (List.mem_append.1 hfield).elim (hp.fits field) (hq.fits field)

theorem among_field {f : Field} {c : Content} (hf : t.field? n = some f)
    (hc : c.Fits s Nested f) : Among s Nested t [n] [(n, c)] where
  sublist := List.Sublist.refl _
  fits field hfield := by
    obtain rfl := List.mem_singleton.1 hfield
    exact ⟨f, hf, hc⟩

/-- A message in which a member of a choice is set, and nothing else. -/
theorem fits_member {choice : String} {kind : Kind} {v : Value}
    (hf : t.field? n = some (.member choice n name kind)) (hn : IsFieldNumber n)
    (hv : v.Fits Nested kind) : Fits s Nested t [(n, .one v)] :=
  Among.toFits (among_field hf ⟨rfl, hv, .inl rfl⟩) (by simpa using hn)
    (List.pairwise_singleton _ _)

theorem among_part {f : Field} {o : Option Content} (hf : t.field? n = some f)
    (ho : ∀ c ∈ o, c.Fits s Nested f) : (part n o).Among s Nested t [n] := by
  cases o with
  | none => exact ⟨List.nil_sublist _, fun _ h => absurd h List.not_mem_nil⟩
  | some c => exact among_field hf (ho c rfl)

/-- A field that is set unless it holds a default. -/
theorem among_part_ite {f : Field} {p : Prop} [Decidable p] {v : Value}
    (hf : t.field? n = some f) (harity : f.arity = .one) (hv : v.Fits Nested f.kind)
    (hp : v.isDefault = true → p) :
    (part n (if p then none else some (.one v))).Among s Nested t [n] := by
  refine among_part hf fun c hc => ?_
  split at hc
  · cases hc
  · next hnot =>
    obtain rfl := Option.some.inj hc
    exact ⟨harity, hv, .inr (Bool.eq_false_iff.2 fun h => hnot (hp h))⟩

theorem among_ofText (hf : t.field? n = some (.single n name .string)) (text : String) :
    (ofText n text).Among s Nested t [n] := by
  rw [ofText_eq_part]
  exact among_part_ite hf rfl trivial id

theorem among_ofInt {kind : Kind} {i : Int} (hf : t.field? n = some (.single n name kind))
    (hi : kind.Holds (.int i)) : (ofInt n i).Among s Nested t [n] := by
  have hfits : (Value.int i).Fits Nested kind := by
    cases kind <;> exact hi
  rw [ofInt_eq_part]
  exact among_part_ite hf rfl hfits (by simp [Value.isDefault])

theorem among_ofBool (hf : t.field? n = some (.single n name .bool)) (b : Bool) :
    (ofBool n b).Among s Nested t [n] := by
  rw [ofBool_eq_part]
  refine among_part hf fun c hc => ?_
  split at hc
  · next hb =>
    obtain rfl := Option.some.inj hc
    exact ⟨rfl, trivial, .inr (by rw [hb]; rfl)⟩
  · cases hc

theorem among_ofBytes (hf : t.field? n = some (.single n name .bytes)) (bs : List UInt8) :
    (ofBytes n bs).Among s Nested t [n] := by
  rw [ofBytes_eq_part]
  exact among_part_ite hf rfl trivial id

theorem among_ofNested (hf : t.field? n = some (.nested n name type)) {o : Option Message}
    (ho : ∀ m ∈ o, Nested type m) : (ofNested n o).Among s Nested t [n] := by
  rw [ofNested_eq_part]
  refine among_part hf fun c hc => ?_
  obtain ⟨m, hm, rfl⟩ := Option.map_eq_some_iff.1 hc
  exact ⟨rfl, ho m hm, .inl rfl⟩

theorem among_ofMany (hf : t.field? n = some (.repeated n name (.message type)))
    {ms : List Message} (hms : ∀ m ∈ ms, Nested type m) :
    (ofMany n ms).Among s Nested t [n] := by
  rw [ofMany_eq_part]
  refine among_part hf fun c hc => ?_
  split at hc
  · cases hc
  · next hne =>
    obtain rfl := Option.some.inj hc
    refine ⟨rfl, by simpa using hne, fun v hv => ?_⟩
    obtain ⟨m, hm, rfl⟩ := List.mem_map.1 hv
    exact hms m hm

/-- A map whose keys are distinct. -/
theorem among_entries {key value : Kind} {entries : List (Key × Value)}
    (hf : t.field? n = some (.mapOf n name type))
    (htype : s.message? type = some (.entry type key value))
    (hnodup : (entries.map (·.1)).Nodup)
    (hentries : ∀ e ∈ entries, key.Holds e.1.toValue ∧
      (e.2.isDefault = true → e.2 = value.default) ∧ Nested type (entryMessage e.1 e.2)) :
    (part n (if entries.isEmpty then none else some (.map entries))).Among s Nested t [n] := by
  refine among_part hf fun c hc => ?_
  split at hc
  · cases hc
  · next hne =>
    obtain rfl := Option.some.inj hc
    exact ⟨rfl, by simpa using hne, hnodup, type, key, value, rfl, htype, hentries⟩

end Among

/-- Distinct names are distinct keys. -/
theorem nodup_textKeys {α : Type} {f : α → Value} {entries : List (String × α)}
    (h : (entries.map (·.1)).Nodup) :
    ((entries.map fun e => (Key.text e.1, f e.2)).map (·.1)).Nodup := by
  have htext : ((entries.map (·.1)).map Key.text).Nodup :=
    List.Pairwise.map _ (fun _ _ hne he => hne (Key.text.inj he)) h
  rw [List.map_map] at htext
  rwa [List.map_map]

theorem entryMessage_eq_parts (k : Key) (v : Value) :
    entryMessage k v = part 1 (if k.toValue.isDefault then none else some (.one k.toValue)) ++
      part 2 (if v.isDefault then none else some (.one v)) := by
  rw [entryMessage]
  split <;> split <;> rfl

/-- The message of an entry whose value may be left out or fits one level down. -/
theorem conforms_entryMessage {s : Schema} {levels : Nat} {type : String} {key value : Kind}
    (htype : s.message? type = some (.entry type key value)) {k : Key} {v : Value}
    (hk : key.Holds k.toValue)
    (hv : v.isDefault = false → v.Fits (Message.Conforms s levels) value) :
    Message.Conforms s (levels + 1) type (entryMessage k v) := by
  have hkey : k.toValue.Fits (Message.Conforms s levels) key := by
    cases key <;> first | exact hk | (cases k <;> simp only [Kind.Holds] at hk)
  obtain ⟨f, hf, harity, hkind⟩ : ∃ f, (MessageType.entry type key value).field? 2 = some f ∧
      f.arity = .one ∧ f.kind = value := by
    cases value <;> exact ⟨_, rfl, rfl, rfl⟩
  have hsecond : (part 2 (if v.isDefault then none else some (.one v))).Among s
      (Message.Conforms s levels) (.entry type key value) [2] := by
    refine among_part hf fun c hc => ?_
    split at hc
    · cases hc
    · next hset =>
      obtain rfl := Option.some.inj hc
      have hnot := Bool.eq_false_iff.2 hset
      exact ⟨harity, hkind ▸ hv hnot, .inr hnot⟩
  have horder : ([1] ++ [2]).Pairwise (MessageType.entry type key value).Precedes := by
    have hapart : ∀ f ∈ (MessageType.entry type key value).fields, f.choice = none := by
      intro f hf
      rcases List.mem_cons.1 hf with rfl | hf
      · rfl
      · obtain rfl := List.mem_singleton.1 hf
        cases value <;> rfl
    exact List.pairwise_pair.2 ⟨by decide, fun f hf _ _ _ _ _ => hapart f hf⟩
  refine ⟨_, htype, ?_⟩
  rw [entryMessage_eq_parts]
  exact ((among_part_ite rfl rfl hkey id).append hsecond).toFits (by decide) horder

/-! ## What a part says

A message that holds under a number what a part holds there says what the part says. -/

section Look

variable {n : Nat} {m : Message}

theorem text_of_get? {text : String} (h : get? n m = get? n (ofText n text)) :
    m.text n = text := by
  rw [Message.text, one?, h, ofText_eq_part, get?_part_self]
  by_cases htext : text = "" <;> simp [htext]

theorem int_of_get? {i : Int} (h : get? n m = get? n (ofInt n i)) : m.int n = i := by
  rw [int, int?, one?, h, ofInt_eq_part, get?_part_self]
  by_cases hi : i = 0 <;> simp [hi]

theorem bool_of_get? {b : Bool} (h : get? n m = get? n (ofBool n b)) : m.bool n = b := by
  rw [bool, one?, h, ofBool_eq_part, get?_part_self]
  cases b <;> rfl

theorem bytes_of_get? {bs : List UInt8} (h : get? n m = get? n (ofBytes n bs)) :
    m.bytes n = bs := by
  rw [bytes, one?, h, ofBytes_eq_part, get?_part_self]
  cases bs <;> rfl

theorem nested?_of_get? {o : Option Message} (h : get? n m = get? n (ofNested n o)) :
    m.nested? n = o := by
  rw [nested?, one?, h, ofNested_eq_part, get?_part_self]
  cases o <;> rfl

theorem messages_of_get? {ms : List Message} (h : get? n m = get? n (ofMany n ms)) :
    m.messages n = ms := by
  rw [messages, many, h, ofMany_eq_part, get?_part_self]
  by_cases hms : ms = []
  · rw [hms]
    rfl
  · have hsome : ms.isEmpty = false := by simpa using hms
    simp only [hsome, Bool.false_eq_true, if_false, List.filterMap_map]
    exact List.filterMap_some

end Look

end AuthGate.Proto.Message
