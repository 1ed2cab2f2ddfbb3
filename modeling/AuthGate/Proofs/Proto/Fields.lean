import AuthGate.Proto.Reader

set_option autoImplicit false

/-! # The fields of a message

A message is read field by field, by rising number, so a field that is set stands behind all the
others: it is found there, and setting it changes nothing before it. -/

namespace AuthGate.Proto

/-- An entry with a new key comes last. -/
theorem putEntry_of_notMem {key : Key} {value : Value} {es : List (Key × Value)}
    (h : key ∉ es.map (·.1)) : putEntry key value es = es ++ [(key, value)] := by
  induction es with
  | nil => rfl
  | cons e rest ih =>
    obtain ⟨k, v⟩ := e
    rw [List.map_cons, List.mem_cons, not_or] at h
    have hk : k ≠ key := fun he => h.1 he.symm
    rw [putEntry, if_neg hk, ih h.2, List.cons_append]

namespace Message

variable {m p q : Message} {number : Nat} {c : Content}

/-! ## Look-up -/

@[simp] theorem get?_append (number : Nat) (p q : Message) :
    get? number (p ++ q) = (get? number p).or (get? number q) := by
  induction p with
  | nil => rfl
  | cons field rest ih =>
    obtain ⟨n, c⟩ := field
    by_cases hn : n = number
    · simp [get?, hn]
    · simp [get?, hn, ih]

theorem get?_eq_none_of_notMem (h : number ∉ m.map (·.1)) : get? number m = none := by
  induction m with
  | nil => rfl
  | cons field rest ih =>
    obtain ⟨n, c⟩ := field
    rw [List.map_cons, List.mem_cons, not_or] at h
    have hn : n ≠ number := fun he => h.1 he.symm
    rw [get?, if_neg hn, ih h.2]

theorem get?_snoc (h : number ∉ m.map (·.1)) : get? number (m ++ [(number, c)]) = some c := by
  rw [get?_append, get?_eq_none_of_notMem h]
  simp [get?]

/-! ## Fields set in order -/

/-- All fields of the message have smaller numbers. -/
def Below (m : Message) (number : Nat) : Prop := ∀ field ∈ m, field.1 < number

theorem Below.notMem (h : m.Below number) : number ∉ m.map (·.1) := by
  intro hmem
  obtain ⟨field, hfield, rfl⟩ := List.mem_map.1 hmem
  exact Nat.lt_irrefl _ (h field hfield)

theorem Below.set (h : m.Below number) (c : Content) :
    m.set number c = m ++ [(number, c)] := by
  induction m with
  | nil => rfl
  | cons field rest ih =>
    obtain ⟨n, old⟩ := field
    obtain ⟨hn, hrest⟩ := List.forall_mem_cons.1 h
    have hlt : n < number := hn
    rw [Message.set, if_neg (Nat.ne_of_lt hlt), if_neg (Nat.lt_asymm hlt), ih hrest,
      List.cons_append]

theorem Below.set_snoc (h : m.Below number) (old c : Content) :
    Message.set number c (m ++ [(number, old)]) = m ++ [(number, c)] := by
  induction m with
  | nil => simp [Message.set]
  | cons field rest ih =>
    obtain ⟨n, other⟩ := field
    obtain ⟨hn, hrest⟩ := List.forall_mem_cons.1 h
    have hlt : n < number := hn
    rw [List.cons_append, Message.set, if_neg (Nat.ne_of_lt hlt), if_neg (Nat.lt_asymm hlt),
      ih hrest, List.cons_append]

theorem without_eq_self {numbers : List Nat} (h : ∀ field ∈ m, field.1 ∉ numbers) :
    m.without numbers = m := by
  rw [without, List.filter_eq_self]
  intro field hfield
  simpa using h field hfield

/-- One value, read into a field for the first time. -/
theorem Below.assign {type : MessageType} {f : Field} (h : m.Below f.number)
    (hapart : ∀ field ∈ m, ∀ g ∈ type.fields, g.number = field.1 → f.choice = g.choice →
      f.choice = none) {v : Value} (hv : f.presence = true ∨ v.isDefault = false) :
    m.assign type f v = m ++ [(f.number, .one v)] := by
  have hkept : (!f.presence && v.isDefault) = false := by
    rcases hv with hv | hv <;> simp [hv]
  have hothers : ∀ c, f.choice = some c → ∀ field ∈ m,
      field.1 ∉ (type.fields.filter fun g => g.choice == some c && g.number != f.number).map
        (·.number) := by
    intro c hc field hfield hmem
    obtain ⟨g, hg, hnumber⟩ := List.mem_map.1 hmem
    obtain ⟨hg, hchoice⟩ := List.mem_filter.1 hg
    rw [Bool.and_eq_true, beq_iff_eq] at hchoice
    have hnone := hapart field hfield g hg hnumber (hc.trans hchoice.1.symm)
    rw [hc] at hnone
    cases hnone
  simp only [Message.assign, hkept, Bool.false_eq_true, if_false]
  cases hc : f.choice with
  | none =>
    have hsame : m.without [] = m := without_eq_self fun _ _ => List.not_mem_nil
    simp only [hsame]
    exact h.set _
  | some c =>
    simp only [without_eq_self (hothers c hc)]
    exact h.set _

/-- Values added to a field that is not set yet. -/
theorem Below.extend {f : Field} (h : m.Below f.number) {vs : List Value} (hvs : vs ≠ []) :
    m.extend f vs = m ++ [(f.number, .many vs)] := by
  have hnone : m.many f.number = [] := by rw [Message.many, get?_eq_none_of_notMem h.notMem]
  have hsome : vs.isEmpty = false := by simpa using hvs
  simp only [Message.extend, hnone, List.nil_append, hsome, Bool.false_eq_true, if_false]
  exact h.set _

/-- Values added to the last field. -/
theorem Below.extend_snoc {f : Field} (h : m.Below f.number) (old : List Value) {vs : List Value}
    (hvs : vs ≠ []) :
    Message.extend f vs (m ++ [(f.number, .many old)]) = m ++ [(f.number, .many (old ++ vs))] := by
  have hold : Message.many f.number (m ++ [(f.number, .many old)]) = old := by
    rw [Message.many, get?_snoc h.notMem]
  have hsome : (old ++ vs).isEmpty = false := by simp [hvs]
  simp only [Message.extend, hold, hsome, Bool.false_eq_true, if_false]
  exact h.set_snoc _ _

/-- An entry read into a map that is not set yet. -/
theorem Below.set_entries (h : m.Below number) (key : Key) (value : Value) :
    m.set number (.map (putEntry key value (m.entries number))) =
      m ++ [(number, .map [(key, value)])] := by
  have hnone : m.entries number = [] := by rw [entries, get?_eq_none_of_notMem h.notMem]
  rw [hnone, h.set]
  rfl

/-- An entry with a new key read into the map that is the last field. -/
theorem Below.set_entries_snoc (h : m.Below number) {es : List (Key × Value)} {key : Key}
    (hkey : key ∉ es.map (·.1)) (value : Value) :
    Message.set number
        (.map (putEntry key value (Message.entries number (m ++ [(number, .map es)]))))
        (m ++ [(number, .map es)]) =
      m ++ [(number, .map (es ++ [(key, value)]))] := by
  have hes : Message.entries number (m ++ [(number, .map es)]) = es := by
    rw [entries, get?_snoc h.notMem]
  rw [hes, h.set_snoc, putEntry_of_notMem hkey]

end Message

end AuthGate.Proto
