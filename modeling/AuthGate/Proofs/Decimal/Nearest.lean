import AuthGate.Decimal.Double
import Mathlib.Algebra.Order.Group.Abs
import Mathlib.Algebra.Order.Ring.Int
import Mathlib.Tactic.Linarith
import Mathlib.Tactic.LinearCombination
import Mathlib.Tactic.Positivity
import Mathlib.Tactic.Zify
import Mathlib.Tactic.Ring

set_option autoImplicit false

/-! # The nearest double

`Double.ofInt` gives the double that is nearest to a whole number among all finite ones, and of two
equally near ones the one with the even mantissa: `isNearest_ofInt`. Values are compared in the least
units, the multiples of `2 ^ (-1074)`, of which every finite double is a whole number. -/

namespace AuthGate.Double

/-! ## Values in least units -/

/-- The sign of a double as a factor. -/
def sign (d : Double) : Int := if d.isNegative then -1 else 1

/-- The power of two that the mantissa is multiplied with, in least units. -/
def power (d : Double) : Nat := max d.exponentField 1 - 1

theorem inLeastUnits_eq (d : Double) : d.inLeastUnits = d.sign * (d.mantissa * 2 ^ d.power) := by
  have hpower : (d.scale + 1074).toNat = d.power := by
    simp only [scale, power]
    omega
  simp only [inLeastUnits, hpower, sign]
  split
  · rw [neg_one_mul]; rfl
  · rw [one_mul]; rfl

theorem mantissa_lt (d : Double) : d.mantissa < 0x20000000000000 := by
  have hfraction : d.fraction < 0x10000000000000 := Nat.mod_lt _ (by decide)
  simp only [mantissa]
  split <;> omega

theorem sign_mul_sign (d : Double) : d.sign * d.sign = 1 := by
  simp only [sign]
  split <;> rfl

theorem abs_sign (d : Double) : |d.sign| = 1 := by
  simp only [sign]
  split <;> rfl

/-! ## Doubles from their parts -/

section Parts

variable {negative : Bool} {size : Nat}

theorem toNat_bits_ofParts (h : size < 0x8000000000000000) :
    (ofParts negative size).bits.toNat = size + if negative then 0x8000000000000000 else 0 := by
  refine Nat.mod_eq_of_lt ?_
  split <;> omega

theorem isNegative_ofParts (h : size < 0x8000000000000000) :
    (ofParts negative size).isNegative = negative := by
  rw [isNegative, toNat_bits_ofParts h]
  cases negative <;> simp [h]

theorem exponentField_ofParts (h : size < 0x8000000000000000) :
    (ofParts negative size).exponentField = size / 0x10000000000000 := by
  rw [exponentField, toNat_bits_ofParts h]
  split <;> omega

theorem fraction_ofParts (h : size < 0x8000000000000000) :
    (ofParts negative size).fraction = size % 0x10000000000000 := by
  rw [fraction, toNat_bits_ofParts h]
  split <;> omega

end Parts

/-- A number of 53 bits times a power of two, or the next number after them. -/
structure Packs (d : Double) (negative : Bool) (m E : Nat) : Prop where
  finite : d.isFinite = true
  negative_eq : d.isNegative = negative
  value : d.mantissa * 2 ^ d.power = m * 2 ^ E
  even : m % 2 = 0 → d.mantissa % 2 = 0

theorem packs_ofParts {negative : Bool} {m E : Nat} (hlow : 0x10000000000000 ≤ m)
    (hhigh : m ≤ 0x20000000000000) (hE : E < 2045) :
    Packs (ofParts negative (E * 0x10000000000000 + m)) negative m E := by
  have hsize : E * 0x10000000000000 + m < 0x8000000000000000 := by omega
  have hfield := @exponentField_ofParts negative _ hsize
  have hfraction := @fraction_ofParts negative _ hsize
  have hnegative := @isNegative_ofParts negative _ hsize
  generalize ofParts negative (E * 0x10000000000000 + m) = d at *
  by_cases hm : m = 0x20000000000000
  · -- rounded up to one more bit, which the exponent takes over
    have hfield' : d.exponentField = E + 2 := by omega
    have hmantissa : d.mantissa = 0x10000000000000 := by
      rw [mantissa, if_neg (by omega)]
      omega
    have hpower : d.power = E + 1 := by
      simp only [power]
      omega
    refine ⟨?_, hnegative, ?_, fun _ => by rw [hmantissa]⟩
    · simp only [isFinite, hfield', bne_iff_ne]
      omega
    · rw [hmantissa, hpower, hm, Nat.pow_succ]
      ring
  · have hfield' : d.exponentField = E + 1 := by omega
    have hmantissa : d.mantissa = m := by
      rw [mantissa, if_neg (by omega)]
      omega
    have hpower : d.power = E := by
      simp only [power]
      omega
    refine ⟨?_, hnegative, by rw [hmantissa, hpower], fun h => by rw [hmantissa, h]⟩
    simp only [isFinite, hfield', bne_iff_ne]
    omega

/-! ## Rounding -/

/-- The quotient is off by at most half of the divisor, and by half only if it is even. -/
theorem roundDiv_near {a b : Nat} (hb : 0 < b) :
    2 * |(roundDiv a b * b : Int) - a| ≤ b ∧
      (2 * |(roundDiv a b * b : Int) - a| = b → roundDiv a b % 2 = 0) := by
  have hsplit : b * (a / b) + a % b = a := Nat.div_add_mod a b
  have hrest : a % b < b := Nat.mod_lt a hb
  simp only [roundDiv]
  generalize a / b = q at *
  generalize a % b = r at *
  have hdown : ((q : Nat) * b : Int) - a = -r := by
    rw [← hsplit]
    push_cast
    ring
  have hup : ((q + 1 : Nat) * b : Int) - a = b - r := by
    rw [← hsplit]
    push_cast
    ring
  split_ifs with hless hmore heven
  · rw [hdown, abs_neg, Nat.abs_cast]
    omega
  · rw [hup, abs_of_nonneg (by omega)]
    omega
  · rw [hdown, abs_neg, Nat.abs_cast]
    omega
  · rw [hup, abs_of_nonneg (by omega)]
    omega

/-- Of the multiples of a distance, one that is off by at most half of it is nearest. -/
theorem abs_sub_le_of_half {q k a b : Int} (hq : 2 * |q * b - a| ≤ b) :
    |q * b - a| ≤ |k * b - a| ∧ (|k * b - a| = |q * b - a| → k = q ∨ 2 * |q * b - a| = b) := by
  have hb : 0 ≤ b := le_trans (by positivity) hq
  rcases lt_trichotomy k q with hlt | rfl | hgt
  · have hfar : k * b ≤ q * b - b := by nlinarith
    generalize k * b = x at *
    generalize q * b = y at *
    rcases abs_cases (x - a) with ⟨hx, _⟩ | ⟨hx, _⟩ <;>
      rcases abs_cases (y - a) with ⟨hy, _⟩ | ⟨hy, _⟩ <;> omega
  · exact ⟨le_refl _, fun _ => .inl rfl⟩
  · have hfar : q * b + b ≤ k * b := by nlinarith
    generalize k * b = x at *
    generalize q * b = y at *
    rcases abs_cases (x - a) with ⟨hx, _⟩ | ⟨hx, _⟩ <;>
      rcases abs_cases (y - a) with ⟨hy, _⟩ | ⟨hy, _⟩ <;> omega

/-! ## Whole numbers -/

/-- A whole number with a power of two moved to where it belongs, so that the quotient has `c + 1`
    bits. -/
structure Shifted (c n a b : Nat) : Prop where
  pos : 0 < b
  low : 2 ^ c * b ≤ a
  high : a < 2 ^ (c + 1) * b
  eq : a * 2 ^ n.log2 = n * b * 2 ^ c

theorem shifted_bounds {n : Nat} (hn : 0 < n) (c : Nat) :
    Shifted c n (shifted n 1 (c - n.log2)).1 (shifted n 1 (c - n.log2)).2 := by
  have hlow : 2 ^ n.log2 ≤ n := Nat.log2_self_le (by omega)
  have hhigh : n < 2 ^ (n.log2 + 1) := Nat.lt_log2_self
  suffices h : ∀ l, l = n.log2 → 2 ^ l ≤ n → n < 2 ^ (l + 1) →
      Shifted c n (shifted n 1 (c - l)).1 (shifted n 1 (c - l)).2 from h _ rfl hlow hhigh
  intro l hl hlow hhigh
  by_cases hle : l ≤ c
  · obtain ⟨k, rfl⟩ := Nat.exists_eq_add_of_le hle
    have hshift : shifted n 1 ((l + k : Nat) - l) = (n * 2 ^ k, 1) := by
      rw [shifted, if_pos (by omega), show (((l + k : Nat) : Int) - l).toNat = k by omega]
      rfl
    rw [hshift]
    refine ⟨one_pos, ?_, ?_, ?_⟩
    · rw [Nat.mul_one, Nat.pow_add]
      exact Nat.mul_le_mul_right _ hlow
    · rw [Nat.mul_one, Nat.add_right_comm, Nat.pow_add]
      exact Nat.mul_lt_mul_of_pos_right hhigh (Nat.two_pow_pos k)
    · rw [← hl, Nat.mul_one, Nat.mul_assoc, ← Nat.pow_add, Nat.add_comm k l]
  · obtain ⟨k, rfl⟩ := Nat.exists_eq_add_of_lt (Nat.lt_of_not_le hle)
    have hshift : shifted n 1 (c - (c + k + 1 : Nat)) = (n, 2 ^ (k + 1)) := by
      rw [shifted, if_neg (by omega), show (-((c : Int) - (c + k + 1 : Nat))).toNat = k + 1 by omega]
      exact congrArg (n, ·) (Nat.one_mul _)
    rw [hshift]
    refine ⟨Nat.two_pow_pos _, ?_, ?_, ?_⟩
    · rwa [← Nat.pow_add, ← Nat.add_assoc]
    · rwa [← Nat.pow_add, show c + 1 + (k + 1) = c + k + 1 + 1 by omega]
    · rw [← hl, Nat.mul_assoc, ← Nat.pow_add, show k + 1 + c = c + k + 1 by omega]

/-- The quotient has 53 bits at this scale, and would have 54 at the one below. -/
theorem scaleFor_one {n : Nat} (hn : 0 < n) : scaleFor n 1 = n.log2 - 52 := by
  have hguess : (n.log2 : Int) - (Nat.log2 1 : Nat) - 53 = n.log2 - 53 := by
    rw [show Nat.log2 1 = 0 from rfl]
    omega
  have hshift : -((n.log2 : Int) - 53) = (53 : Nat) - n.log2 := by omega
  have hfits := (shifted_bounds hn 53).low
  simp only [scaleFor, hguess, hshift, decide_eq_true_eq]
  rw [if_neg (Nat.not_lt.2 (by rwa [Nat.mul_comm] at hfits))]
  omega

theorem ofRatio_eq {n d a b : Nat} {e : Int} (negative : Bool) (hn : n ≠ 0)
    (hscale : scaleFor n d = e) (hshifted : shifted n d (-e) = (a, b)) :
    ofRatio negative n d =
      if 2047 * 0x10000000000000 ≤ (e + 1074).toNat * 0x10000000000000 + roundDiv a b then
        infinity negative
      else ofParts negative ((e + 1074).toNat * 0x10000000000000 + roundDiv a b) := by
  rw [ofRatio, if_neg hn, hscale]
  simp only [hshifted]

/-- One, in least units. -/
def unit : Nat := 2 ^ 1074

/-- A quotient of 53 bits rounds to as many, or to the least number of 54. -/
theorem roundDiv_bounds {a b : Nat} (hb : 0 < b) (hlow : 2 ^ 52 * b ≤ a) (hhigh : a < 2 ^ 53 * b) :
    0x10000000000000 ≤ roundDiv a b ∧ roundDiv a b ≤ 0x20000000000000 := by
  obtain ⟨hnear, -⟩ := roundDiv_near (a := a) hb
  generalize roundDiv a b = m at *
  have hbelow : 2 * ((a : Int) - m * b) ≤ b := by
    have := neg_abs_le ((m * b : Int) - a)
    omega
  have habove : 2 * ((m * b : Int) - a) ≤ b := by
    have := le_abs_self ((m * b : Int) - a)
    omega
  constructor
  · by_contra hless
    have hfar : (m + 1) * b ≤ 2 ^ 52 * b := Nat.mul_le_mul_right b (by omega)
    rw [Nat.succ_mul] at hfar
    zify at hfar hlow
    omega
  · by_contra hmore
    have hfar : (2 ^ 53 + 1) * b ≤ m * b := Nat.mul_le_mul_right b (by omega)
    rw [Nat.succ_mul] at hfar
    zify at hfar hhigh
    omega

/-- A positive whole number rounded to 53 bits: off by at most half of the last of them, and by half
    only if that is zero. -/
theorem exists_packs_ofRatio {n : Nat} (hn : 0 < n) (hbig : n.log2 < 1023) (negative : Bool) :
    ∃ m E : Nat, Packs (ofRatio negative n 1) negative m E ∧
      0x10000000000000 * 2 ^ E ≤ n * unit ∧
      2 * |(m * 2 ^ E : Int) - n * unit| ≤ 2 ^ E ∧
      (2 * |(m * 2 ^ E : Int) - n * unit| = 2 ^ E → m % 2 = 0) := by
  have hbounds := shifted_bounds hn 52
  have hshift : -((n.log2 : Int) - 52) = (52 : Nat) - n.log2 := by omega
  have hpower : (((n.log2 : Int) - 52) + 1074).toNat = n.log2 + 1022 := by omega
  rw [← hshift] at hbounds
  obtain ⟨⟨a, b⟩, hshifted⟩ : ∃ q, shifted n 1 (-((n.log2 : Int) - 52)) = q := ⟨_, rfl⟩
  have hratio := ofRatio_eq negative (by omega) (scaleFor_one hn) hshifted
  rw [hshifted] at hbounds
  rw [hpower] at hratio
  obtain ⟨hb, hlow, hhigh, heq⟩ := hbounds
  simp only at hb hlow hhigh heq
  obtain ⟨hmlow, hmhigh⟩ := roundDiv_bounds hb hlow hhigh
  obtain ⟨hnear, heven⟩ := roundDiv_near (a := a) hb
  generalize roundDiv a b = m at *
  have hE : n.log2 + 1022 < 2045 := by omega
  have hunits : a * 2 ^ (n.log2 + 1022) = n * b * unit := by
    rw [unit, show 1074 = 52 + 1022 from rfl, Nat.pow_add, Nat.pow_add, ← Nat.mul_assoc, heq,
      Nat.mul_assoc]
  generalize n.log2 + 1022 = E at *
  have hpos : (0 : Int) < 2 ^ E := by positivity
  -- the distance in least units, with the divisor on both sides
  have hoff : b * |(m * 2 ^ E : Int) - n * unit| = |(m * b : Int) - a| * 2 ^ E := by
    zify at hunits
    have hdiff : b * ((m * 2 ^ E : Int) - n * unit) = ((m * b : Int) - a) * 2 ^ E := by
      linear_combination hunits
    have habs := congrArg abs hdiff
    rwa [abs_mul, abs_mul, Nat.abs_cast, abs_of_pos hpos] at habs
  have hbpos : (0 : Int) < b := by exact_mod_cast hb
  refine ⟨m, E, ?_, ?_, ?_, fun htie => heven ?_⟩
  · rw [hratio, if_neg (by omega)]
    exact packs_ofParts hmlow hmhigh hE
  · refine Nat.le_of_mul_le_mul_left ?_ hb
    calc b * (0x10000000000000 * 2 ^ E) = 2 ^ 52 * b * 2 ^ E := by ring
      _ ≤ a * 2 ^ E := Nat.mul_le_mul_right _ hlow
      _ = b * (n * unit) := by rw [hunits]; ring
  · refine le_of_mul_le_mul_left ?_ hbpos
    calc b * (2 * |(m * 2 ^ E : Int) - n * unit|)
        = 2 * |(m * b : Int) - a| * 2 ^ E := by linear_combination 2 * hoff
      _ ≤ b * 2 ^ E := mul_le_mul_of_nonneg_right hnear hpos.le
  · refine mul_right_cancel₀ hpos.ne' ?_
    linear_combination b * htie - 2 * hoff

/-! ## The nearest double -/

/-- The double nearest to a whole number: no finite double is nearer to it, and where another one is as
    near, the mantissa is even. It has the sign of the number, and zero has none. -/
structure IsNearest (d : Double) (i : Int) : Prop where
  finite : d.isFinite = true
  negative_eq : d.isNegative = decide (i < 0)
  least : ∀ d' : Double, d'.isFinite = true →
    |d.inLeastUnits - i * unit| ≤ |d'.inLeastUnits - i * unit|
  even : ∀ d' : Double, d'.isFinite = true → d'.inLeastUnits ≠ d.inLeastUnits →
    |d'.inLeastUnits - i * unit| = |d.inLeastUnits - i * unit| → d.mantissa % 2 = 0

/-- A double with a power of two of its own that is less than another one is below what 53 bits make of
    that; any other double is a multiple of it. -/
theorem multiple_or_small (d : Double) (E : Nat) :
    (∃ k : Int, d.inLeastUnits = k * 2 ^ E) ∨ |d.inLeastUnits| < 0x10000000000000 * 2 ^ E := by
  rw [inLeastUnits_eq]
  by_cases hE : E ≤ d.power
  · obtain ⟨k, hk⟩ := Nat.exists_eq_add_of_le hE
    refine .inl ⟨d.sign * d.mantissa * 2 ^ k, ?_⟩
    rw [hk]
    ring
  · obtain ⟨k, rfl⟩ := Nat.exists_eq_add_of_lt (Nat.lt_of_not_le hE)
    have hmantissa : (d.mantissa : Int) < 0x20000000000000 := by exact_mod_cast d.mantissa_lt
    have hpower : (0 : Int) < 2 ^ d.power := by positivity
    have hone : (1 : Int) ≤ 2 ^ k := by exact_mod_cast Nat.one_le_two_pow
    refine .inr ?_
    rw [abs_mul, abs_sign, one_mul, abs_of_nonneg (by positivity)]
    calc (d.mantissa * 2 ^ d.power : Int) < 0x20000000000000 * 2 ^ d.power :=
          mul_lt_mul_of_pos_right hmantissa hpower
      _ ≤ 0x20000000000000 * 2 ^ d.power * 2 ^ k :=
          le_mul_of_one_le_right (by positivity) hone
      _ = 0x10000000000000 * 2 ^ (d.power + k + 1) := by ring

/-- Against a number of 53 bits that is off by at most half of the last one, no double of the same sign
    or the other is nearer. -/
theorem nearest_of_half {m n E : Nat} (hlow : 0x10000000000000 * 2 ^ E ≤ n * unit)
    (hhalf : 2 * |(m * 2 ^ E : Int) - n * unit| ≤ 2 ^ E) {x : Int}
    (hx : (∃ k : Int, x = k * 2 ^ E) ∨ |x| < 0x10000000000000 * 2 ^ E) :
    |(m * 2 ^ E : Int) - n * unit| ≤ |x - n * unit| ∧
      (|x - n * unit| = |(m * 2 ^ E : Int) - n * unit| →
        x = m * 2 ^ E ∨ 2 * |(m * 2 ^ E : Int) - n * unit| = 2 ^ E) := by
  rcases hx with ⟨k, rfl⟩ | hsmall
  · obtain ⟨hle, htie⟩ := abs_sub_le_of_half (k := k) hhalf
    exact ⟨hle, fun h => (htie h).imp_left fun hk => by rw [hk]⟩
  · -- the least number of 53 bits is nearer already
    obtain ⟨hle, -⟩ := abs_sub_le_of_half (k := 0x10000000000000) hhalf
    have hlow' : (0x10000000000000 * 2 ^ E : Int) ≤ n * unit := by exact_mod_cast hlow
    have hlt : |(m * 2 ^ E : Int) - n * unit| < |x - n * unit| := by
      rw [abs_of_nonpos (by linarith : (0x10000000000000 * 2 ^ E : Int) - n * unit ≤ 0)] at hle
      have hfar := neg_abs_le (x - n * unit)
      have hbelow := le_abs_self x
      linarith
    exact ⟨hlt.le, fun h => absurd h hlt.ne'⟩

theorem isNearest_zero : (ofInt 0).IsNearest 0 := by
  have hzero : (ofInt 0).inLeastUnits = 0 := rfl
  refine ⟨rfl, rfl, ?_, fun _ _ _ _ => rfl⟩
  intro d' _
  rw [hzero, zero_mul, sub_zero, abs_zero]
  exact abs_nonneg _

/-- A whole number that is not too large becomes the double nearest to it. -/
theorem isNearest_ofInt {i : Int} (hbig : i.natAbs.log2 < 1023) : (ofInt i).IsNearest i := by
  by_cases hzero : i = 0
  · rw [hzero]
    exact isNearest_zero
  obtain ⟨m, E, hpacks, hlow, hhalf, heven⟩ :=
    exists_packs_ofRatio (Int.natAbs_pos.2 hzero) hbig (decide (i < 0))
  rw [← ofInt] at hpacks
  have hvalue : (ofInt i).inLeastUnits = (ofInt i).sign * (m * 2 ^ E) := by
    rw [inLeastUnits_eq]
    exact_mod_cast congrArg ((ofInt i).sign * ·) (congrArg Nat.cast hpacks.value)
  have hi : i = (ofInt i).sign * i.natAbs := by
    rw [sign, hpacks.negative_eq]
    by_cases hneg : i < 0
    · rw [decide_eq_true hneg, if_pos rfl]
      omega
    · rw [decide_eq_false hneg, if_neg Bool.false_ne_true]
      omega
  have hsign := sign_mul_sign (ofInt i)
  have habs := abs_sign (ofInt i)
  generalize (ofInt i).sign = s at *
  -- with the sign taken out, all distances are from a positive number
  have hdistance (x : Int) : |x - i * unit| = |s * x - i.natAbs * unit| := by
    have hout : s * (x - i * unit) = s * x - i.natAbs * unit := by
      linear_combination -s * unit * hi - i.natAbs * unit * hsign
    rw [← hout, abs_mul, habs, one_mul]
  have hself : s * (ofInt i).inLeastUnits = m * 2 ^ E := by
    rw [hvalue, ← mul_assoc, hsign, one_mul]
  have hother (d' : Double) : (∃ k : Int, s * d'.inLeastUnits = k * 2 ^ E) ∨
      |s * d'.inLeastUnits| < 0x10000000000000 * 2 ^ E := by
    rcases multiple_or_small d' E with ⟨k, hk⟩ | hsmall
    · exact .inl ⟨s * k, by rw [hk, mul_assoc]⟩
    · exact .inr (by rwa [abs_mul, habs, one_mul])
  refine ⟨hpacks.finite, hpacks.negative_eq, ?_, ?_⟩
  · intro d' _
    rw [hdistance, hdistance, hself]
    exact (nearest_of_half hlow hhalf (hother d')).1
  · intro d' _ hne htie
    rw [hdistance, hdistance, hself] at htie
    rcases (nearest_of_half hlow hhalf (hother d')).2 htie with hsame | hties
    · refine absurd ?_ hne
      have hs : s * d'.inLeastUnits = s * (ofInt i).inLeastUnits := hsame.trans hself.symm
      linear_combination s * hs - (d'.inLeastUnits - (ofInt i).inLeastUnits) * hsign
    · exact hpacks.even (heven hties)

end AuthGate.Double
