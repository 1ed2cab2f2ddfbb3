import AuthGate.Call.Service
import AuthGate.Proofs.Server.Duration
import AuthGate.Proofs.Text.Digits
import AuthGate.Proofs.Text.Percent

set_option autoImplicit false

/-! # Deadlines of calls

Which headers state a timeout, and how long it is: `IsTimeout` says so without the reader. Beside
the reader stands what a machine does for it: a text is cut at a byte offset, products and moments
must fit their words, and each of these can go wrong. For headers none does, since text is ASCII
and eight characters hold no large number, and the machine comes to the deadline that the reader
gives. The main statement is `deadline_isTimeout`. -/

namespace AuthGate.Timeout

open Text (IsNatural)

/-! ## Timeouts as they are written -/

/-- The nanoseconds of an hour. -/
def hour : Nat := 3600 * 1000000000

/-- The units of time with their nanoseconds. -/
inductive Measures : Char → Nat → Prop
  | hours : Measures 'H' hour
  | minutes : Measures 'M' (60 * 1000000000)
  | seconds : Measures 'S' 1000000000
  | millis : Measures 'm' 1000000
  | micros : Measures 'u' 1000
  | nanos : Measures 'n' 1

/-- The bytes that state a timeout, and its nanoseconds: two to nine characters, a number and a
    unit. -/
inductive IsTimeout (value : List UInt8) : Nat → Prop
  | intro {number : List Char} {unit : Char} {amount factor : Nat}
    (bytes : Text.Utf8.encode (number ++ [unit]) = value)
    (size : 2 ≤ value.length ∧ value.length ≤ 9) (numeral : IsNatural number amount)
    (measured : Measures unit factor) : IsTimeout value (amount * factor)

/-! ## The steps of a machine -/

/-- What breaks a step off. -/
inductive Fault where
  /-- A text is cut inside a character. -/
  | insideCharacter
  /-- A moment lies behind the last one of the clock. -/
  | beyondClock
  deriving DecidableEq

/-- The text of a header's value. -/
def toText? (value : List UInt8) : Option (List Char) :=
  if value.all isText then Text.Utf8.decode? value else none

/-- A text in two at a byte offset, unless that lies inside a character or behind the end. -/
def cutAt? : Nat → List Char → Option (List Char × List Char)
  | 0, cs => some ([], cs)
  | _ + 1, [] => none
  | n + 1, c :: cs =>
    if c.utf8Size ≤ n + 1 then
      (cutAt? (n + 1 - c.utf8Size) cs).map fun (left, right) => (c :: left, right)
    else none

/-- The duration of an amount of a unit. -/
def lasting? (unit : List Char) (amount : UInt64) : Option Duration :=
  match unit with
  | ['H'] => (checkedMul? amount 3600).map (.ofAmount .second)
  | ['M'] => (checkedMul? amount 60).map (.ofAmount .second)
  | ['S'] => some (.ofAmount .second amount)
  | ['m'] => some (.ofAmount .milli amount)
  | ['u'] => some (.ofAmount .micro amount)
  | ['n'] => some (.ofAmount .nano amount)
  | _ => none

/-- The duration that a text states. -/
def measure (text : List Char) : Except Fault (Option Duration) :=
  let width := Text.Utf8.width text
  if width < 2 || 9 < width then .ok none
  else
    match cutAt? (width - 1) text with
    | none => .error .insideCharacter
    | some (number, unit) =>
      .ok ((Text.word64? number).bind fun amount => lasting? unit (.ofNat amount))

/-- A clock: the moment it shows and the last one that it can, in nanoseconds. -/
structure Clock where
  now : Nat
  last : Nat

/-- The moment a duration from now, if there is a duration. -/
def Clock.after (clock : Clock) : Option Duration → Except Fault (Option Nat)
  | none => .ok none
  | some d =>
    if clock.now + d.total ≤ clock.last then .ok (some (clock.now + d.total))
    else .error .beyondClock

/-- The deadline of a call with a header of this value. -/
def Clock.deadline (clock : Clock) (value : List UInt8) : Except Fault (Option Nat) :=
  match toText? value with
  | none => .ok none
  | some text => (measure text).bind clock.after

/-! ## Text -/

theorem isText_iff {b : UInt8} : isText b = true ↔ b = 9 ∨ 32 ≤ b.toNat ∧ b.toNat < 127 := by
  simp [isText, UInt8.le_iff_toNat_le, UInt8.lt_iff_toNat_lt]

theorem toNat_lt_of_isText {b : UInt8} (h : isText b = true) : b.toNat < 0x80 := by
  rcases isText_iff.1 h with rfl | ⟨_, hb⟩
  · decide
  · omega

/-- Bytes below 128 are characters one by one. -/
theorem encode_map_ofNat {value : List UInt8} (h : ∀ b ∈ value, b.toNat < 0x80) :
    Text.Utf8.encode (value.map fun b => Char.ofNat b.toNat) = value := by
  induction value with
  | nil => rfl
  | cons b rest ih =>
    obtain ⟨hb, hrest⟩ := List.forall_mem_cons.1 h
    have hcode : (Char.ofNat b.toNat).toNat = b.toNat := Text.Utf8.toNat_ofNat (by omega)
    rw [List.map_cons, Text.encode_cons_of_ascii (by rwa [hcode]), Text.byte_ofNat, ih hrest]

theorem toText?_eq_some_iff {value : List UInt8} {cs : List Char} :
    toText? value = some cs ↔ value.all isText = true ∧ Text.Utf8.encode cs = value := by
  rw [toText?]
  split
  · next h =>
    rw [Text.Utf8.decode?, ← Text.Utf8.decode_eq_ok_iff]
    cases Text.Utf8.decode value <;> simp [Except.toOption, h]
  · next h => simp [h]

/-- The reader takes the bytes one by one, which are the characters of the text. -/
theorem toText?_of_isText {value : List UInt8} (h : value.all isText = true) :
    toText? value = some (value.map fun b => Char.ofNat b.toNat) := by
  refine toText?_eq_some_iff.2 ⟨h, encode_map_ofNat fun b hb => ?_⟩
  exact toNat_lt_of_isText (List.all_eq_true.1 h b hb)

theorem ofHeader?_eq (value : List UInt8) : ofHeader? value = (toText? value).bind ofChars? := by
  rw [ofHeader?]
  split
  · next h =>
    rw [toText?_of_isText h]
    rfl
  · next h => rw [toText?, if_neg h, Option.bind_none]

theorem ascii_of_toText? {value : List UInt8} {text : List Char} (h : toText? value = some text) :
    ∀ c ∈ text, c.toNat < 0x80 := by
  have hall := (toText?_eq_some_iff.1 h).1
  rw [toText?_of_isText hall, Option.some.injEq] at h
  subst h
  intro c hc
  obtain ⟨b, hb, rfl⟩ := List.mem_map.1 hc
  have hsmall := toNat_lt_of_isText (List.all_eq_true.1 hall b hb)
  rwa [Text.Utf8.toNat_ofNat (by omega)]

/-- The characters of ASCII that can be seen, and the space. -/
def IsPrintable (c : Char) : Prop := 32 ≤ c.toNat ∧ c.toNat < 127

instance : DecidablePred IsPrintable :=
  fun c => inferInstanceAs (Decidable (32 ≤ c.toNat ∧ c.toNat < 127))

theorem IsPrintable.ascii {c : Char} (h : IsPrintable c) : c.toNat < 0x80 :=
  Nat.lt_trans h.2 (by decide)

theorem isText_encode {cs : List Char} (h : ∀ c ∈ cs, IsPrintable c) :
    (Text.Utf8.encode cs).all isText = true := by
  induction cs with
  | nil => rfl
  | cons c rest ih =>
    obtain ⟨hc, hrest⟩ := List.forall_mem_cons.1 h
    have hbyte : (Text.byte c).toNat = c.toNat :=
      Text.Utf8.toNat_toUInt8 (Nat.lt_trans hc.ascii (by decide))
    have htext : isText (Text.byte c) = true := isText_iff.2 (.inr (by rwa [hbyte]))
    rw [Text.encode_cons_of_ascii hc.ascii, List.all_cons, htext, ih hrest, Bool.and_self]

/-! ## Cutting -/

/-- Where a part ends the text is cut into that part and the other. -/
theorem cutAt?_width (left right : List Char) :
    cutAt? (Text.Utf8.width left) (left ++ right) = some (left, right) := by
  induction left with
  | nil => rw [Text.Utf8.width, List.nil_append, cutAt?]
  | cons c rest ih =>
    obtain ⟨n, hn⟩ : ∃ n, c.utf8Size + Text.Utf8.width rest = n + 1 :=
      Nat.exists_eq_add_one.2 (Nat.add_pos_left c.utf8Size_pos _)
    have hrest : n + 1 - c.utf8Size = Text.Utf8.width rest := by omega
    rw [Text.Utf8.width, hn, List.cons_append, cutAt?, if_pos (by omega), hrest, ih]
    rfl

/-! ## Units -/

theorem unit?_eq_some_iff {unit : Char} {factor : Nat} :
    unit? unit = some factor ↔ Measures unit factor := by
  constructor
  · intro h
    unfold unit? at h
    split at h <;> cases h
    all_goals constructor
  · rintro ⟨⟩ <;> rfl

theorem Measures.le_hour {unit : Char} {factor : Nat} (h : Measures unit factor) :
    factor ≤ hour := by
  cases h <;> decide

/-- The largest number of eight characters is small enough for every unit. -/
theorem amount_lt {number : List Char} (hsize : number.length ≤ 8) {amount : Nat}
    (h : IsNatural number amount) : amount < 100000000 :=
  Nat.lt_of_lt_of_le h.lt_pow_length (Nat.pow_le_pow_right (by decide) hsize)

/-- Times the factor of any unit such a number still fits a word. -/
theorem amount_mul_lt {amount k : UInt64} (h : amount.toNat < 100000000) (hk : k.toNat ≤ 3600) :
    amount.toNat * k.toNat < 0x10000000000000000 :=
  calc amount.toNat * k.toNat ≤ 100000000 * 3600 := Nat.mul_le_mul (Nat.le_of_lt h) hk
    _ < 0x10000000000000000 := by decide

theorem total_checkedMul? {amount k : UInt64} (h : amount.toNat < 100000000)
    (hk : k.toNat ≤ 3600) (d : Division) :
    ((checkedMul? amount k).map (Duration.ofAmount d)).map Duration.total =
      some (amount.toNat * (k.toNat * d.nanos.toNat)) := by
  obtain ⟨c, hc, hvalue⟩ := exists_checkedMul? (amount_mul_lt h hk)
  rw [hc, Option.map_some, Option.map_some, Duration.total_ofAmount, hvalue, Nat.mul_assoc]

theorem total_lasting? (unit : Char) {amount : UInt64} (h : amount.toNat < 100000000) :
    (lasting? [unit] amount).map Duration.total = (unit? unit).map (amount.toNat * ·) := by
  cases hunit : unit? unit with
  | none =>
    -- each letter that the machine knows is a unit of the reader
    rw [lasting?]
    · rfl
    all_goals
      rintro ⟨⟩
      cases hunit
  | some factor =>
    cases unit?_eq_some_iff.1 hunit with
    | hours => exact total_checkedMul? h (by decide) .second
    | minutes => exact total_checkedMul? h (by decide) .second
    | seconds => exact congrArg some (Duration.total_ofAmount .second amount)
    | millis => exact congrArg some (Duration.total_ofAmount .milli amount)
    | micros => exact congrArg some (Duration.total_ofAmount .micro amount)
    | nanos => exact congrArg some (Duration.total_ofAmount .nano amount)

/-! ## Texts -/

/-- Too short or too long, or else a last character after at most eight others. -/
theorem size_cases (text : List Char) :
    (text.length < 2 || 9 < text.length) = true ∨
      ∃ number unit, text = number ++ [unit] ∧ 1 ≤ number.length ∧ number.length ≤ 8 := by
  by_cases hsize : (text.length < 2 || 9 < text.length) = true
  · exact .inl hsize
  simp only [Bool.or_eq_true, decide_eq_true_eq, not_or, Nat.not_lt] at hsize
  rcases List.eq_nil_or_concat text with rfl | ⟨number, unit, rfl⟩
  · simp at hsize
  · rw [List.concat_eq_append, List.length_append, List.length_singleton] at hsize
    rw [List.concat_eq_append]
    exact .inr ⟨number, unit, rfl, by omega, by omega⟩

section Concat

variable {number : List Char} {unit : Char}

theorem size_concat (hlow : 1 ≤ number.length) (hhigh : number.length ≤ 8) :
    ((number ++ [unit]).length < 2 || 9 < (number ++ [unit]).length) = false := by
  simp only [List.length_append, List.length_singleton, Bool.or_eq_false_iff,
    decide_eq_false_iff_not]
  omega

theorem ofChars?_concat (hlow : 1 ≤ number.length) (hhigh : number.length ≤ 8) :
    ofChars? (number ++ [unit]) =
      (unit? unit).bind fun factor => (Text.word64? number).map (· * factor) := by
  rw [ofChars?, size_concat hlow hhigh, if_neg Bool.false_ne_true, List.getLast?_concat,
    Option.bind_some, List.dropLast_concat]
  cases unit? unit with
  | none => rfl
  | some factor => cases Text.word64? number <;> rfl

theorem measure_concat (hlow : 1 ≤ number.length) (hhigh : number.length ≤ 8)
    (hascii : ∀ c ∈ number ++ [unit], c.toNat < 0x80) :
    measure (number ++ [unit]) =
      .ok ((Text.word64? number).bind fun amount => lasting? [unit] (.ofNat amount)) := by
  have hwidth := Text.Utf8.width_of_ascii hascii
  have hnumber : (number ++ [unit]).length - 1 = Text.Utf8.width number := by
    rw [List.length_append, Text.Utf8.width_of_ascii fun c hc => ?_]
    · rfl
    · exact hascii c (List.mem_append_left _ hc)
  rw [measure]
  simp only [hwidth, size_concat hlow hhigh, Bool.false_eq_true, if_false, hnumber, cutAt?_width]

end Concat

/-- On text that is ASCII nothing breaks off, and the machine measures what the reader reads. -/
theorem exists_measure {text : List Char} (hascii : ∀ c ∈ text, c.toNat < 0x80) :
    ∃ d?, measure text = .ok d? ∧ d?.map Duration.total = ofChars? text := by
  rcases size_cases text with hsize | ⟨number, unit, rfl, hlow, hhigh⟩
  · refine ⟨none, ?_, ?_⟩
    · simp only [measure, Text.Utf8.width_of_ascii hascii, hsize, if_true]
    · rw [ofChars?, if_pos hsize]
      rfl
  refine ⟨_, measure_concat hlow hhigh hascii, ?_⟩
  rw [ofChars?_concat hlow hhigh]
  cases hnumber : Text.word64? number with
  | none => cases unit? unit <;> rfl
  | some amount =>
    obtain ⟨numeral, hword⟩ := Text.word64?_eq_some_iff.1 hnumber
    have hamount : (UInt64.ofNat amount).toNat = amount := Nat.mod_eq_of_lt hword
    -- eight characters are what keeps the product within its word
    have hsmall := amount_lt hhigh numeral
    rw [Option.bind_some, total_lasting? unit (by rwa [hamount]), hamount]
    cases unit? unit <;> rfl

-- the last byte is the second one of a character
example : measure "1é".toList = .error .insideCharacter := rfl

theorem ofChars?_eq_some_iff {text : List Char} {nanos : Nat} :
    ofChars? text = some nanos ↔
      ∃ number unit amount factor, text = number ++ [unit] ∧ text.length ≤ 9 ∧
        IsNatural number amount ∧ Measures unit factor ∧ nanos = amount * factor := by
  constructor
  · intro h
    rcases size_cases text with hsize | ⟨number, unit, rfl, hlow, hhigh⟩
    · rw [ofChars?, if_pos hsize] at h
      cases h
    rw [ofChars?_concat hlow hhigh] at h
    obtain ⟨factor, hunit, hnumber⟩ := Option.bind_eq_some_iff.1 h
    obtain ⟨amount, hamount, rfl⟩ := Option.map_eq_some_iff.1 hnumber
    refine ⟨number, unit, amount, factor, rfl, ?_, (Text.word64?_eq_some_iff.1 hamount).1,
      unit?_eq_some_iff.1 hunit, rfl⟩
    rw [List.length_append, List.length_singleton]
    omega
  · rintro ⟨number, unit, amount, factor, rfl, hsize, numeral, measured, rfl⟩
    rw [List.length_append, List.length_singleton] at hsize
    have hhigh : number.length ≤ 8 := by omega
    have hlow : 1 ≤ number.length := List.length_pos_iff.2 numeral.isDecimal.ne_nil
    have hsmall := amount_lt hhigh numeral
    rw [ofChars?_concat hlow hhigh, unit?_eq_some_iff.2 measured,
      Text.word64?_eq_some_iff.2 ⟨numeral, by omega⟩]
    rfl

/-! ## Values of headers -/

theorem Measures.isPrintable {unit : Char} {factor : Nat} (h : Measures unit factor) :
    IsPrintable unit := by
  cases h <;> decide

theorem isPrintable_of_isNatural {number : List Char} {amount : Nat} (h : IsNatural number amount)
    {c : Char} (hc : c ∈ number) : IsPrintable c := by
  rcases h.isDecimal.mem hc with hdigit | rfl | rfl
  · have hrange := Text.isDigit_iff.1 hdigit
    exact ⟨by omega, by omega⟩
  · decide
  · decide

/-- A number and a character after it have no more characters than bytes. -/
theorem length_le_of_encode {number : List Char} {unit : Char} {amount : Nat}
    (numeral : IsNatural number amount) :
    number.length + 1 ≤ (Text.Utf8.encode (number ++ [unit])).length := by
  have hascii : ∀ c ∈ number, c.toNat < 0x80 := fun c hc =>
    (isPrintable_of_isNatural numeral hc).ascii
  have hunit := unit.utf8Size_pos
  rw [Text.Utf8.encode_append, List.length_append, Text.Utf8.length_encode,
    Text.Utf8.length_encode, Text.Utf8.width_of_ascii hascii]
  exact Nat.add_le_add_left hunit _

theorem ofHeader?_eq_some_iff {value : List UInt8} {nanos : Nat} :
    ofHeader? value = some nanos ↔ IsTimeout value nanos := by
  rw [ofHeader?_eq]
  constructor
  · intro h
    obtain ⟨text, htext, hread⟩ := Option.bind_eq_some_iff.1 h
    obtain ⟨number, unit, amount, factor, rfl, hsize, numeral, measured, rfl⟩ :=
      ofChars?_eq_some_iff.1 hread
    have hvalue := (toText?_eq_some_iff.1 htext).2
    have hlength : value.length = number.length + 1 := by
      rw [← hvalue, Text.Utf8.length_encode, Text.Utf8.width_of_ascii (ascii_of_toText? htext),
        List.length_append, List.length_singleton]
    have hlow := List.length_pos_iff.2 numeral.isDecimal.ne_nil
    rw [List.length_append, List.length_singleton] at hsize
    exact .intro hvalue (by omega) numeral measured
  · rintro (@⟨number, unit, amount, factor, rfl, size, numeral, measured⟩)
    have hprintable : ∀ c ∈ number ++ [unit], IsPrintable c :=
      List.forall_mem_append.2 ⟨fun c hc => isPrintable_of_isNatural numeral hc,
        List.forall_mem_singleton.2 measured.isPrintable⟩
    have hsize : (number ++ [unit]).length ≤ 9 := by
      rw [List.length_append]
      exact Nat.le_trans (length_le_of_encode numeral) size.2
    rw [toText?_eq_some_iff.2 ⟨isText_encode hprintable, rfl⟩, Option.bind_some]
    exact ofChars?_eq_some_iff.2 ⟨number, unit, amount, factor, rfl, hsize, numeral, measured, rfl⟩

/-- No timeout reaches 100,000,000 hours. -/
theorem IsTimeout.lt {value : List UInt8} {nanos : Nat} (h : IsTimeout value nanos) :
    nanos < 100000000 * hour := by
  obtain ⟨rfl, size, numeral, measured⟩ := h
  have hsize := Nat.le_trans (length_le_of_encode numeral) size.2
  have hamount := amount_lt (by omega) numeral
  exact Nat.mul_lt_mul_of_lt_of_le hamount measured.le_hour (by decide)

theorem Clock.after_eq {clock : Clock} {d? : Option Duration} {bound : Nat}
    (room : clock.now + bound ≤ clock.last) (h : ∀ d, d? = some d → d.total ≤ bound) :
    clock.after d? = .ok ((d?.map Duration.total).map (clock.now + ·)) := by
  cases d? with
  | none => rfl
  | some d =>
    have hd := h d rfl
    rw [Clock.after, if_pos (by omega), Option.map_some, Option.map_some]

/-- The machine comes to the deadline of the call, and nothing breaks off on the way. -/
theorem Clock.deadline_eq {clock : Clock}
    (room : clock.now + 100000000 * hour ≤ clock.last) (value : List UInt8) :
    clock.deadline value = .ok (Service.deadline clock.now (some value)) := by
  have hread := ofHeader?_eq value
  rw [Service.deadline, Option.bind_some, Clock.deadline]
  cases htext : toText? value with
  | none =>
    rw [htext] at hread
    rw [hread]
    rfl
  | some text =>
    obtain ⟨d?, hmeasure, htotal⟩ := exists_measure (ascii_of_toText? htext)
    rw [htext, Option.bind_some, ← htotal] at hread
    have hbound (d : Duration) (hd : d? = some d) : d.total ≤ 100000000 * hour := by
      rw [hd, Option.map_some, ofHeader?_eq_some_iff] at hread
      exact Nat.le_of_lt hread.lt
    simp only [hmeasure, Except.bind, Clock.after_eq room hbound, hread]

/-- Bytes that are not ASCII are no text. -/
theorem ofHeader?_of_not_ascii {value : List UInt8} {b : UInt8} (hmem : b ∈ value)
    (hb : 0x80 ≤ b) : ofHeader? value = none := by
  rw [ofHeader?, if_neg]
  intro hall
  have hsmall := toNat_lt_of_isText (List.all_eq_true.1 hall b hmem)
  have hlarge : 0x80 ≤ b.toNat := UInt8.le_iff_toNat_le.1 hb
  omega

/-- What a header makes the deadline of a call, on a clock with 100,000,000 hours left: no step of
    the machine breaks off; there is a deadline exactly if the value is a timeout, and it is that
    many nanoseconds from now; bytes that are not ASCII make none; and no number in a value is too
    large for its unit. -/
theorem deadline_isTimeout (clock : Clock)
    (room : clock.now + 100000000 * hour ≤ clock.last) (value : List UInt8) :
    clock.deadline value = .ok (Service.deadline clock.now (some value)) ∧
      (∀ moment, Service.deadline clock.now (some value) = some moment ↔
        ∃ nanos, IsTimeout value nanos ∧ moment = clock.now + nanos) ∧
      (∀ b ∈ value, 0x80 ≤ b → Service.deadline clock.now (some value) = none) ∧
      (∀ number unit amount, Text.Utf8.encode (number ++ [unit]) = value → value.length ≤ 9 →
        Text.word64? number = some amount →
        ∀ k ≤ 3600, checkedMul? (.ofNat amount) k ≠ none) := by
  refine ⟨Clock.deadline_eq room value, fun moment => ?_, fun b hmem hb => ?_, ?_⟩
  · rw [Service.deadline, Option.bind_some, Option.map_eq_some_iff]
    simp only [ofHeader?_eq_some_iff, eq_comm (a := moment)]
  · rw [Service.deadline, Option.bind_some, ofHeader?_of_not_ascii hmem hb, Option.map_none]
  · rintro number unit amount rfl size hnumber k hk
    obtain ⟨numeral, hword⟩ := Text.word64?_eq_some_iff.1 hnumber
    have hsize := Nat.le_trans (length_le_of_encode numeral) size
    have hsmall := amount_lt (by omega) numeral
    have hamount : (UInt64.ofNat amount).toNat = amount := Nat.mod_eq_of_lt hword
    obtain ⟨c, hc, -⟩ :=
      exists_checkedMul? (amount_mul_lt (by rwa [hamount]) (UInt64.le_iff_toNat_le.1 hk))
    rw [hc]
    exact Option.some_ne_none c

/-- A clock that counts seconds in 63 bits. -/
def wideClock : Clock := ⟨5, 0x8000000000000000 * 1000000000⟩

/-- The bytes of the longest timeout. -/
def longest : List UInt8 := Text.Utf8.encode "99999999H".toList

theorem deadline_isTimeout_longest :
    wideClock.now + 100000000 * hour ≤ wideClock.last ∧
      wideClock.deadline longest = .ok (some (5 + 99999999 * hour)) ∧
      Service.deadline wideClock.now (some longest) = some (5 + 99999999 * hour) := by
  have room : wideClock.now + 100000000 * hour ≤ wideClock.last := by decide
  have hdigits : Text.AreDigits "99999999".toList :=
    ⟨by decide, List.all_eq_true.1 rfl⟩
  have htimeout : IsTimeout longest (99999999 * hour) :=
    .intro rfl (by decide) (.unsigned hdigits) .hours
  obtain ⟨hsteps, hmoment, -⟩ := deadline_isTimeout wideClock room longest
  have hdeadline : Service.deadline wideClock.now (some longest) = some (5 + 99999999 * hour) :=
    (hmoment _).2 ⟨99999999 * hour, htimeout, rfl⟩
  exact ⟨room, hsteps.trans (congrArg Except.ok hdeadline), hdeadline⟩

end AuthGate.Timeout
