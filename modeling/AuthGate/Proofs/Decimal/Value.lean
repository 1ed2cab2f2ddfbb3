import AuthGate.Proofs.Decimal.Nearest
import AuthGate.Proofs.Json.WellFormed
import Mathlib.Algebra.Order.Field.Power
import Mathlib.Data.Rat.Floor

set_option autoImplicit false

/-! # Exact values

The exact value of a number is a rational one. A number is taken for a whole number exactly if its
value is that whole number: `Number.toInt?_eq_some_iff`. A machine has words instead, to which it
cuts a double down: `Double.cut_eq` says what of the value is left, and `IsNearest.exists_toInt?`
that a number beyond the words stays beyond them when it is made a double first. -/

namespace AuthGate

namespace Double

/-! ## Doubles -/

/-- The exact value of a finite double. -/
def value (d : Double) : ℚ := d.sign * d.mantissa * 2 ^ d.scale

/-- Numerator and denominator stand for the quotient with its power of two. -/
theorem shifted_div (n d : Nat) (e : Int) :
    ((shifted n d e).1 : ℚ) / (shifted n d e).2 = n / d * 2 ^ e := by
  by_cases he : 0 ≤ e
  · obtain ⟨k, rfl⟩ := Int.eq_ofNat_of_zero_le he
    rw [shifted, if_pos he, Int.toNat_natCast, zpow_natCast, Nat.pow_eq]
    push_cast
    ring
  · obtain ⟨k, hk⟩ := Int.eq_ofNat_of_zero_le (by omega : 0 ≤ -e)
    obtain rfl : e = -k := by omega
    rw [shifted, if_neg he, Int.neg_neg, Int.toNat_natCast, zpow_neg, zpow_natCast, Nat.pow_eq]
    push_cast
    ring

theorem shifted_pos {d : Nat} (hd : 0 < d) (n : Nat) (e : Int) : 0 < (shifted n d e).2 := by
  rw [shifted]
  split
  · exact hd
  · exact Nat.mul_pos hd (Nat.two_pow_pos _)

/-- A quotient with a sign is a whole number only if nothing remains. -/
theorem sign_mul_div_eq_iff {s : Int} (hs : s * s = 1) {a b : Nat} (hb : 0 < b) {i : Int} :
    (s : ℚ) * (a / b) = i ↔ a = a / b * b ∧ s * (a / b : Nat) = i := by
  have hbne : (b : ℚ) ≠ 0 := by exact_mod_cast hb.ne'
  constructor
  · intro h
    have hwhole : s * a = i * b := by
      rw [← mul_div_assoc, div_eq_iff hbne] at h
      exact_mod_cast h
    have hdvd : b ∣ a := by
      have hmul : (a : Int) = b * (s * i) := by linear_combination s * hwhole - a * hs
      exact_mod_cast Dvd.intro _ hmul.symm
    obtain ⟨q, rfl⟩ := hdvd
    rw [Nat.mul_div_cancel_left q hb]
    refine ⟨Nat.mul_comm b q, ?_⟩
    have hbint : (b : Int) ≠ 0 := by exact_mod_cast hb.ne'
    apply mul_right_cancel₀ hbint
    push_cast at hwhole
    linear_combination hwhole
  · rintro ⟨ha, rfl⟩
    have hquotient : (a : ℚ) / b = (a / b : Nat) := by
      rw [div_eq_iff hbne]
      exact_mod_cast ha
    rw [hquotient]
    push_cast
    rfl

/-- A double is taken for a whole number exactly if it is finite and equal to it. -/
theorem toInt?_eq_some_iff {d : Double} {i : Int} :
    d.toInt? = some i ↔ d.isFinite = true ∧ d.value = i := by
  have hvalue : d.value = d.sign * ((shifted d.mantissa 1 d.scale).1 /
      (shifted d.mantissa 1 d.scale).2 : ℚ) := by
    rw [shifted_div, value]
    push_cast
    ring
  have hpos := shifted_pos Nat.one_pos d.mantissa d.scale
  rw [hvalue, sign_mul_div_eq_iff d.sign_mul_sign hpos, toInt?]
  cases d.isFinite with
  | false => simp
  | true =>
    generalize shifted d.mantissa 1 d.scale = q
    obtain ⟨a, b⟩ := q
    simp only [if_true, true_and, sign, Option.ite_none_right_eq_some, Option.some.injEq]
    refine and_congr_right fun _ => ?_
    split
    · rw [neg_one_mul]
    · rw [one_mul]

theorem unit_pos : 0 < unit := by
  rw [unit]
  positivity

theorem value_mul_unit (d : Double) : d.value * unit = d.inLeastUnits := by
  have hpower : d.scale + (1074 : Nat) = d.power := by
    simp only [scale, power]
    omega
  have hscale : (2 : ℚ) ^ d.scale * unit = 2 ^ d.power := by
    rw [unit, Nat.cast_pow, Nat.cast_ofNat, ← zpow_natCast, ← zpow_add₀ two_ne_zero, hpower,
      zpow_natCast]
  rw [value, inLeastUnits_eq]
  push_cast
  linear_combination d.sign * d.mantissa * hscale

/-- A double that is not small has no fraction. -/
theorem exists_value_eq_of_le {d : Double} (h : 0x20000000000000 ≤ d.value) :
    ∃ i : Int, d.value = i := by
  have hmantissa : (d.mantissa : ℚ) < 0x20000000000000 := by exact_mod_cast d.mantissa_lt
  have hsign : (d.sign : ℚ) ≤ 1 := by exact_mod_cast le_of_abs_le d.abs_sign.le
  have hscale : 0 ≤ d.scale := by
    by_contra hneg
    have hpow : (2 : ℚ) ^ d.scale ≤ 1 := zpow_le_one_of_nonpos₀ one_le_two (by omega)
    have hpos : (0 : ℚ) < 2 ^ d.scale := by positivity
    have hsmall : d.value < 0x20000000000000 := by
      rw [value]
      calc (d.sign : ℚ) * d.mantissa * 2 ^ d.scale ≤ 1 * d.mantissa * 1 := by gcongr
        _ < 0x20000000000000 := by rwa [one_mul, mul_one]
    linarith
  obtain ⟨k, hk⟩ := Int.eq_ofNat_of_zero_le hscale
  refine ⟨d.sign * d.mantissa * 2 ^ k, ?_⟩
  rw [value, hk, zpow_natCast]
  push_cast
  rfl

/-! ## Doubles as words -/

/-- Whether a double is finite and has no fraction. -/
def IsWhole (d : Double) : Prop := d.isFinite = true ∧ Int.fract d.value = 0

instance (d : Double) : Decidable d.IsWhole :=
  inferInstanceAs (Decidable (d.isFinite = true ∧ Int.fract d.value = 0))

/-- The value of a double without its fraction. -/
def wholePart (d : Double) : Int := if d.value < 0 then ⌈d.value⌉ else ⌊d.value⌋

/-- The nearest of the whole numbers that 64 signed bits hold. -/
def clamp64 (i : Int) : Int := max (-(0x8000000000000000)) (min (0x8000000000000000 - 1) i)

/-- A double as 64 signed bits: without its fraction, at the nearer end of the range if it is out of
    range, and zero if it is no number. -/
def toInt64 (d : Double) : Int := if d.isNaN then 0 else clamp64 d.wholePart

theorem isWhole_iff {d : Double} : d.IsWhole ↔ ∃ i, d.toInt? = some i := by
  simp only [toInt?_eq_some_iff, exists_and_left, IsWhole, Int.fract_eq_zero_iff, Set.mem_range]
  exact and_congr_right fun _ => exists_congr fun _ => eq_comm

theorem toInt64_of_toInt? {d : Double} {i : Int} (h : d.toInt? = some i) :
    d.toInt64 = clamp64 i := by
  obtain ⟨hfinite, hvalue⟩ := toInt?_eq_some_iff.1 h
  have hnumber : d.isNaN = false := by simp [isNaN, bne_iff_ne.1 hfinite]
  have hpart : d.wholePart = i := by
    rw [wholePart, hvalue, Int.floor_intCast, Int.ceil_intCast, ite_self]
  rw [toInt64, hnumber, hpart, if_neg Bool.false_ne_true]

/-- What is cut from a double without a fraction is its value brought into range. -/
theorem cut_eq (d : Double) :
    (if d.IsWhole then some d.toInt64 else none) = d.toInt?.map clamp64 := by
  cases h : d.toInt? with
  | none => rw [if_neg (by simp [isWhole_iff, h]), Option.map_none]
  | some i => rw [if_pos (isWhole_iff.2 ⟨i, h⟩), toInt64_of_toInt? h, Option.map_some]

/-- The double nearest to a number that is out of range is out of range too. -/
theorem IsNearest.exists_toInt? {d : Double} {i : Int} (h : d.IsNearest i)
    (hi : 0x8000000000000000 ≤ i) : ∃ j, d.toInt? = some j ∧ 0x8000000000000000 ≤ j := by
  -- the end of the range is a double itself, so nothing below it is nearer
  obtain ⟨edge, hedge, hunits⟩ : ∃ edge : Double, edge.isFinite = true ∧
      edge.inLeastUnits = 0x8000000000000000 * unit :=
    ⟨⟨0x43E0000000000000⟩, rfl, by decide +kernel⟩
  have hnear := h.least edge hedge
  have hunit : (0 : Int) < unit := Int.natCast_pos.2 unit_pos
  have hlarge : 0x8000000000000000 * (unit : Int) ≤ d.inLeastUnits := by
    have hbelow : 0x8000000000000000 * (unit : Int) ≤ i * unit :=
      mul_le_mul_of_nonneg_right hi hunit.le
    rw [hunits, abs_of_nonpos (sub_nonpos.2 hbelow)] at hnear
    have hleft := neg_abs_le (d.inLeastUnits - i * unit)
    linarith
  have hvalue : 0x8000000000000000 ≤ d.value := by
    refine le_of_mul_le_mul_right ?_ (Nat.cast_pos.2 unit_pos)
    rw [value_mul_unit]
    exact_mod_cast hlarge
  obtain ⟨j, hj⟩ := exists_value_eq_of_le (le_trans (by norm_num) hvalue)
  refine ⟨j, toInt?_eq_some_iff.2 ⟨h.finite, hj⟩, ?_⟩
  rw [hj] at hvalue
  exact_mod_cast hvalue

end Double

namespace Number

/-- The exact value of a number. -/
def value : Number → ℚ
  | .whole w => w.value
  | .double d => d.value

/-- A number is taken for a whole number exactly if it is finite and equal to it. -/
theorem toInt?_eq_some_iff {n : Number} {i : Int} :
    n.toInt? = some i ↔ n.IsFinite ∧ n.value = i := by
  cases n with
  | whole w => simp [toInt?, IsFinite, value]
  | double d => exact Double.toInt?_eq_some_iff

end Number

end AuthGate
