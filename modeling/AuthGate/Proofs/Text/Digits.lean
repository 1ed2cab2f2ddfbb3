import AuthGate.Text.Digits

set_option autoImplicit false

/-! # Whole numbers as they are written

Which texts are read as whole numbers, and as which: an optional sign, then at least one digit. The
main statements are `int64?_eq_some_iff` and, without a minus, `word64?_eq_some_iff`. What is
written for a whole number is one of its texts: `isDecimal_ofInt`. -/

namespace AuthGate.Text

/-- Decimal digits, at least one. -/
def AreDigits (ds : List Char) : Prop := ds ≠ [] ∧ ∀ c ∈ ds, isDigit c = true

/-- A natural number in decimal, an optional `+` before it. -/
inductive IsNatural : List Char → Nat → Prop
  | unsigned {ds : List Char} (digits : AreDigits ds) : IsNatural ds (Nat.ofDigitChars 10 ds 0)
  | plus {ds : List Char} (digits : AreDigits ds) :
    IsNatural ('+' :: ds) (Nat.ofDigitChars 10 ds 0)

/-- A whole number in decimal, an optional sign before it. -/
inductive IsDecimal : List Char → Int → Prop
  | unsigned {ds : List Char} (digits : AreDigits ds) : IsDecimal ds (Nat.ofDigitChars 10 ds 0)
  | plus {ds : List Char} (digits : AreDigits ds) :
    IsDecimal ('+' :: ds) (Nat.ofDigitChars 10 ds 0)
  | minus {ds : List Char} (digits : AreDigits ds) :
    IsDecimal ('-' :: ds) (-(Nat.ofDigitChars 10 ds 0 : Int))

/-- Characters are ordered by their code points. -/
theorem le_iff_toNat_le {c d : Char} : c ≤ d ↔ c.toNat ≤ d.toNat := Iff.rfl

theorem isDigit_iff {c : Char} : isDigit c = true ↔ 48 ≤ c.toNat ∧ c.toNat ≤ 57 := by
  simp only [isDigit, Bool.and_eq_true, decide_eq_true_eq, le_iff_toNat_le]
  rfl

/-- Of the digits in base sixteen those below ten are the decimal ones. -/
theorem digitValue?_eq_some_iff {c : Char} {d : Nat} :
    digitValue? c = some d ∧ d < 10 ↔ isDigit c = true ∧ c.toNat - '0'.toNat = d := by
  have hzero : '0'.toNat = 48 := rfl
  rw [digitValue?, ← isDigit, hzero]
  cases hc : isDigit c with
  | true =>
    have hrange := isDigit_iff.1 hc
    simp only [if_true, Option.some.injEq, true_and]
    omega
  | false =>
    -- a letter counts for ten or more
    simp only [Bool.false_eq_true, if_false, false_and, iff_false, not_and]
    intro hvalue
    split at hvalue
    · injection hvalue with hvalue
      omega
    · split at hvalue
      · injection hvalue with hvalue
        omega
      · cases hvalue

theorem continueNat?_eq_some_iff {ds : List Char} {acc n : Nat} :
    continueNat? 10 acc ds = some n ↔
      (∀ c ∈ ds, isDigit c = true) ∧ Nat.ofDigitChars 10 ds acc = n := by
  induction ds generalizing acc with
  | nil => simp [continueNat?, Nat.ofDigitChars_nil]
  | cons c rest ih =>
    rw [List.forall_mem_cons, Nat.ofDigitChars_cons, Nat.mul_comm 10 acc, continueNat?]
    cases hc : isDigit c with
    | true =>
      obtain ⟨hvalue, hsmall⟩ := digitValue?_eq_some_iff.2 ⟨hc, rfl⟩
      simp only [hvalue, if_pos hsmall, ih, true_and]
    | false =>
      simp only [Bool.false_eq_true, false_and, iff_false]
      split
      · next d hd =>
        have hlarge : ¬ d < 10 := fun h => by
          rw [(digitValue?_eq_some_iff.1 ⟨hd, h⟩).1] at hc
          cases hc
        simp [hlarge]
      · simp

theorem natInBase?_eq_some_iff {ds : List Char} {n : Nat} :
    natInBase? 10 ds = some n ↔ AreDigits ds ∧ Nat.ofDigitChars 10 ds 0 = n := by
  cases ds with
  | nil => simp [natInBase?, AreDigits]
  | cons c rest => simp [natInBase?, AreDigits, continueNat?_eq_some_iff]

/-- So many digits stay below that power of ten. -/
theorem ofDigitChars_lt {ds : List Char} (h : ∀ c ∈ ds, isDigit c = true) (acc : Nat) :
    Nat.ofDigitChars 10 ds acc < (acc + 1) * Nat.pow 10 ds.length := by
  induction ds generalizing acc with
  | nil => simp [Nat.ofDigitChars_nil]
  | cons c rest ih =>
    obtain ⟨hc, hrest⟩ := List.forall_mem_cons.1 h
    have hdigit : c.toNat - '0'.toNat ≤ 9 := by
      have hrange := isDigit_iff.1 hc
      have hzero : '0'.toNat = 48 := rfl
      omega
    have hpow : Nat.pow 10 (rest.length + 1) = 10 * Nat.pow 10 rest.length := Nat.mul_comm ..
    rw [Nat.ofDigitChars_cons, List.length_cons, hpow]
    calc _ < (10 * acc + (c.toNat - '0'.toNat) + 1) * Nat.pow 10 rest.length := ih hrest _
      _ ≤ (acc + 1) * 10 * Nat.pow 10 rest.length := Nat.mul_le_mul_right _ (by omega)
      _ = (acc + 1) * (10 * Nat.pow 10 rest.length) := Nat.mul_assoc ..

/-- A natural number is below the power of ten of its length. -/
theorem IsNatural.lt_pow_length {cs : List Char} {n : Nat} (h : IsNatural cs n) :
    n < Nat.pow 10 cs.length := by
  cases h with
  | unsigned hds =>
    have hlt := ofDigitChars_lt hds.2 0
    rwa [Nat.zero_add, Nat.one_mul] at hlt
  | @plus ds hds =>
    have hlt := ofDigitChars_lt hds.2 0
    have hpow : Nat.pow 10 (ds.length + 1) = 10 * Nat.pow 10 ds.length := Nat.mul_comm ..
    rw [List.length_cons, hpow]
    omega

/-- A sign is no digit. -/
theorem AreDigits.ne_of_not_isDigit {c : Char} {ds : List Char} (h : AreDigits (c :: ds))
    {sign : Char} (hsign : isDigit sign = false) : c ≠ sign := by
  rintro rfl
  have hc := h.2 c (List.mem_cons_self ..)
  rw [hsign] at hc
  cases hc

theorem unsignedInBase?_eq_some_iff {cs : List Char} {n : Nat} :
    unsignedInBase? 10 cs = some n ↔ IsNatural cs n := by
  constructor
  · intro h
    simp only [unsignedInBase?] at h
    split at h
    · obtain ⟨hds, rfl⟩ := natInBase?_eq_some_iff.1 h
      exact .plus hds
    · obtain ⟨hds, rfl⟩ := natInBase?_eq_some_iff.1 h
      exact .unsigned hds
  · intro h
    cases h with
    | plus hds => rw [unsignedInBase?, natInBase?_eq_some_iff.2 ⟨hds, rfl⟩]
    | unsigned hds =>
      have hplus : ∀ ds, cs ≠ '+' :: ds := by
        rintro ds rfl
        exact hds.ne_of_not_isDigit (by decide) rfl
      rw [unsignedInBase?.eq_2 _ _ hplus, natInBase?_eq_some_iff.2 ⟨hds, rfl⟩]

theorem signedInBase?_eq_some_iff {cs : List Char} {i : Int} :
    signedInBase? 10 cs = some i ↔ IsDecimal cs i := by
  constructor
  · intro h
    simp only [signedInBase?] at h
    split at h
    · obtain ⟨_, hi, rfl⟩ := Option.map_eq_some_iff.1 h
      obtain ⟨n, hn, ⟨⟩⟩ := Option.bind_eq_some_iff.1 hi
      obtain ⟨hds, rfl⟩ := natInBase?_eq_some_iff.1 hn
      exact .minus hds
    · obtain ⟨_, hi, rfl⟩ := Option.map_eq_some_iff.1 h
      obtain ⟨n, hn, ⟨⟩⟩ := Option.bind_eq_some_iff.1 hi
      cases unsignedInBase?_eq_some_iff.1 hn with
      | plus hds => exact .plus hds
      | unsigned hds => exact .unsigned hds
  · intro h
    cases h with
    | minus hds =>
      rw [signedInBase?, natInBase?_eq_some_iff.2 ⟨hds, rfl⟩]
      rfl
    | plus hds =>
      rw [signedInBase?, unsignedInBase?_eq_some_iff.2 (.plus hds)]
      · rfl
      · simp
    | unsigned hds =>
      have hminus : ∀ ds, cs ≠ '-' :: ds := by
        rintro ds rfl
        exact hds.ne_of_not_isDigit (by decide) rfl
      rw [signedInBase?.eq_2 _ _ hminus, unsignedInBase?_eq_some_iff.2 (.unsigned hds)]
      rfl

theorem fitsInt64_iff {i : Int} :
    fitsInt64 i = true ↔ -(0x8000000000000000) ≤ i ∧ i < 0x8000000000000000 := by
  simp [fitsInt64]

/-- A text is read as a 64-bit number exactly if it is a whole number in decimal that 64 signed bits
    hold. -/
theorem int64?_eq_some_iff {cs : List Char} {i : Int} :
    int64? cs = some i ↔ IsDecimal cs i ∧ -(0x8000000000000000) ≤ i ∧ i < 0x8000000000000000 := by
  rw [int64?, Option.filter_eq_some_iff, signedInBase?_eq_some_iff, fitsInt64_iff]

/-- A text is read as a 64-bit number without a sign exactly if it is a natural number in decimal
    that 64 bits hold. -/
theorem word64?_eq_some_iff {cs : List Char} {n : Nat} :
    word64? cs = some n ↔ IsNatural cs n ∧ n < 0x10000000000000000 := by
  rw [word64?, Option.filter_eq_some_iff, unsignedInBase?_eq_some_iff]
  simp [fitsWord64]

/-- No character of a whole number is anything else than a digit or a sign. -/
theorem IsDecimal.mem {cs : List Char} {i : Int} (h : IsDecimal cs i) {c : Char} (hc : c ∈ cs) :
    isDigit c = true ∨ c = '+' ∨ c = '-' := by
  cases h with
  | unsigned hds => exact .inl (hds.2 c hc)
  | plus hds =>
    rcases List.mem_cons.1 hc with rfl | hc
    · exact .inr (.inl rfl)
    · exact .inl (hds.2 c hc)
  | minus hds =>
    rcases List.mem_cons.1 hc with rfl | hc
    · exact .inr (.inr rfl)
    · exact .inl (hds.2 c hc)

theorem IsDecimal.ne_nil {cs : List Char} {i : Int} (h : IsDecimal cs i) : cs ≠ [] := by
  cases h with
  | unsigned hds => exact hds.1
  | plus | minus => simp

theorem IsNatural.isDecimal {cs : List Char} {n : Nat} (h : IsNatural cs n) : IsDecimal cs n := by
  cases h with
  | unsigned hds => exact .unsigned hds
  | plus hds => exact .plus hds

/-! ## Writing -/

theorem areDigits_toDigits (n : Nat) : AreDigits (Nat.toDigits 10 n) := by
  refine ⟨Nat.toDigits_ne_nil, fun c hc => ?_⟩
  exact Nat.isDigit_of_mem_toDigits (by decide) (by decide) hc

/-- What is written for a whole number is that number in decimal. -/
theorem isDecimal_ofInt (i : Int) : IsDecimal (ofInt i) i := by
  have hdigits := areDigits_toDigits i.natAbs
  have hvalue : Nat.ofDigitChars 10 (Nat.toDigits 10 i.natAbs) 0 = i.natAbs :=
    Nat.ofDigitChars_toDigits (by decide) (by decide)
  rw [ofInt]
  split
  · next hneg =>
    have hdecimal := IsDecimal.minus hdigits
    have hi : -(i.natAbs : Int) = i := by omega
    rwa [hvalue, hi] at hdecimal
  · next hpos =>
    have hdecimal := IsDecimal.unsigned hdigits
    have hi : (i.natAbs : Int) = i := by omega
    rwa [hvalue, hi] at hdecimal

/-- Different whole numbers are written differently. -/
theorem ofInt_inj {i j : Int} (h : ofInt i = ofInt j) : i = j := by
  have hi := signedInBase?_eq_some_iff.2 (isDecimal_ofInt i)
  have hj := signedInBase?_eq_some_iff.2 (isDecimal_ofInt j)
  rw [h, hj] at hi
  exact (Option.some_inj.1 hi).symm

/-- A hexadecimal digit has the value that it was written for. -/
theorem digitValue?_hexDigit {d : Nat} (h : d < 16) : digitValue? (hexDigit d) = some d := by
  have hall : ∀ d : Fin 16, digitValue? (hexDigit d) = some d.val := by decide
  exact hall ⟨d, h⟩

end AuthGate.Text
