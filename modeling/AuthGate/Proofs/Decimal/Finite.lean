import AuthGate.Proofs.Decimal.Nearest

set_option autoImplicit false

/-! # Results that are finite

How large the exponent of a rounded quotient can get, by the size of the quotient
(`exponentField_ofRatio_le`): a quotient that is far from the largest double is never rounded to
infinity, and neither is a quotient of doubles that are not far apart (`exponentField_div_le`). -/

namespace AuthGate.Double

theorem isFinite_of_exponentField_lt {d : Double} (h : d.exponentField < 2047) :
    d.isFinite = true :=
  bne_iff_ne.2 (Nat.ne_of_lt h)

/-- The sign is not part of the exponent. -/
theorem isFinite_negate (d : Double) : d.negate.isFinite = d.isFinite := by
  have hfield (n : Nat) : (n ^^^ 2 ^ 63) / 2 ^ 52 % 2 ^ 11 = n / 2 ^ 52 % 2 ^ 11 := by
    rw [← Nat.shiftRight_eq_div_pow, ← Nat.shiftRight_eq_div_pow, Nat.shiftRight_xor_distrib,
      Nat.xor_mod_two_pow]
    exact Nat.xor_zero _
  have hsame : d.negate.exponentField = d.exponentField := by
    rw [exponentField, negate, UInt64.toNat_xor]
    exact hfield _
  rw [isFinite, isFinite, hsame]

theorem scaleFor_bounds (n d : Nat) :
    (n.log2 : Int) - d.log2 - 53 ≤ scaleFor n d ∧
      scaleFor n d ≤ max ((n.log2 : Int) - d.log2 - 52) (-1074) := by
  simp only [scaleFor]
  split <;> omega

/-- A quotient that is scaled to 53 bits by its number of bits has at most 54. -/
theorem shifted_lt {n d : Nat} (hd : 0 < d) {e : Int} (he : (n.log2 : Int) - d.log2 - 53 ≤ e) :
    (shifted n d (-e)).1 < 2 ^ 54 * (shifted n d (-e)).2 := by
  have hn : n < 2 ^ (n.log2 + 1) := Nat.lt_log2_self
  have hlow : 2 ^ d.log2 ≤ d := Nat.log2_self_le (by omega)
  generalize n.log2 = l at *
  generalize d.log2 = m at *
  by_cases hneg : 0 ≤ -e
  · obtain ⟨k, hk⟩ := Int.eq_ofNat_of_zero_le hneg
    rw [hk, shifted, if_pos (Int.natCast_nonneg k), Int.toNat_natCast]
    calc n * 2 ^ k < 2 ^ (l + 1) * 2 ^ k := Nat.mul_lt_mul_of_pos_right hn (Nat.two_pow_pos k)
      _ = 2 ^ (l + 1 + k) := (Nat.pow_add ..).symm
      _ ≤ 2 ^ (54 + m) := Nat.pow_le_pow_right two_pos (by omega)
      _ = 2 ^ 54 * 2 ^ m := Nat.pow_add ..
      _ ≤ 2 ^ 54 * d := Nat.mul_le_mul_left _ hlow
  · obtain ⟨k, rfl⟩ := Int.eq_ofNat_of_zero_le (by omega : 0 ≤ e)
    rw [shifted, if_neg hneg, Int.neg_neg, Int.toNat_natCast]
    calc n < 2 ^ (l + 1) := hn
      _ ≤ 2 ^ (54 + m + k) := Nat.pow_le_pow_right two_pos (by omega)
      _ = 2 ^ 54 * (2 ^ m * 2 ^ k) := by rw [Nat.pow_add, Nat.pow_add, Nat.mul_assoc]
      _ ≤ 2 ^ 54 * (d * 2 ^ k) := Nat.mul_le_mul_left _ (Nat.mul_le_mul_right _ hlow)

theorem roundDiv_le {a b c : Nat} (h : a < c * b) : roundDiv a b ≤ c := by
  have hquotient : a / b < c := Nat.div_lt_of_lt_mul (by rwa [Nat.mul_comm])
  simp only [roundDiv]
  split_ifs <;> omega

/-- A quotient below a power of two is rounded to a double with an exponent not far above. -/
theorem exponentField_ofRatio_le {negative : Bool} {n d k : Nat} (hd : 0 < d) (h : n ≤ d * 2 ^ k)
    (hk : k ≤ 1000) : (ofRatio negative n d).exponentField ≤ k + 1026 := by
  by_cases hzero : n = 0
  · rw [ofRatio, if_pos hzero, zero, exponentField_ofParts (by omega), Nat.zero_div]
    exact Nat.zero_le _
  have hlogs : n.log2 ≤ d.log2 + k := by
    have hlt : n < 2 ^ (d.log2 + k + 1) := by
      calc n ≤ d * 2 ^ k := h
        _ < 2 ^ (d.log2 + 1) * 2 ^ k :=
          Nat.mul_lt_mul_of_pos_right Nat.lt_log2_self (Nat.two_pow_pos k)
        _ = 2 ^ (d.log2 + k + 1) := by rw [← Nat.pow_add, Nat.add_right_comm]
    have := (Nat.log2_lt hzero).2 hlt
    omega
  obtain ⟨hlow, hhigh⟩ := scaleFor_bounds n d
  obtain ⟨⟨a, b⟩, hshifted⟩ : ∃ q, shifted n d (-scaleFor n d) = q := ⟨_, rfl⟩
  have hround : roundDiv a b ≤ 2 ^ 54 := by
    have hless := shifted_lt hd hlow
    rw [hshifted] at hless
    exact roundDiv_le hless
  have hscale : (scaleFor n d + 1074).toNat ≤ k + 1022 := by omega
  have hratio := ofRatio_eq negative hzero rfl hshifted
  generalize (scaleFor n d + 1074).toNat = e at *
  generalize roundDiv a b = m at *
  rw [hratio, if_neg (by omega), exponentField_ofParts (by omega)]
  omega

/-- A quotient of doubles of which the second is normal. -/
theorem exponentField_div_le {a b : Double} {k : Nat} (hb : 0x10000000000000 ≤ b.mantissa)
    (hscale : a.scale - b.scale ≤ k) (hk : k < 1000) : (a.div b).exponentField ≤ k + 1027 := by
  have ha := a.mantissa_lt
  simp only [div, shifted]
  split
  · next hpos =>
    refine exponentField_ofRatio_le (k := k + 1) (by omega) ?_ hk
    calc a.mantissa * 2 ^ (a.scale - b.scale).toNat
        ≤ (b.mantissa * 2) * 2 ^ k :=
          Nat.mul_le_mul (by omega) (Nat.pow_le_pow_right two_pos (by omega))
      _ = b.mantissa * 2 ^ (k + 1) := by ring
  · have hpow := Nat.two_pow_pos (-(a.scale - b.scale)).toNat
    refine exponentField_ofRatio_le (k := k + 1) (Nat.mul_pos (by omega) hpow) ?_ hk
    calc a.mantissa ≤ b.mantissa * 2 := by omega
      _ ≤ b.mantissa * 2 ^ (-(a.scale - b.scale)).toNat * (2 * 2 ^ k) :=
          Nat.mul_le_mul (Nat.le_mul_of_pos_right _ hpow)
            (Nat.le_mul_of_pos_right _ (Nat.two_pow_pos k))
      _ = b.mantissa * 2 ^ (-(a.scale - b.scale)).toNat * 2 ^ (k + 1) := by ring

/-- The double of a power of ten is normal and at least one, up to the largest that is finite. -/
theorem normal_powerOfTen : ∀ e : Nat, e < 309 →
    0x10000000000000 ≤ (ofDecimal false 1 e).mantissa ∧ -52 ≤ (ofDecimal false 1 e).scale := by
  decide +kernel

end AuthGate.Double
