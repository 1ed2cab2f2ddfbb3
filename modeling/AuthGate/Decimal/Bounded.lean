import AuthGate.Decimal.Shortest

set_option autoImplicit false

/-! # Short decimals from 64-bit arithmetic

A decimal that reads back as a double, found with numbers of 64 bits times powers of two. The two
ends of the reals that round to the double are multiplied with a power of ten that brings them
between `2 ^ 32` and `2 ^ 64` units, each product rounded and the span then narrowed by a unit at
either end. The digits are those of the upper end, as many as are needed to stay within the span;
the last one is then lowered towards the double itself, but only as long as that distance is known,
which it is not after the eighth digit behind the point of the scaled number. So the digits are
nearly always as few as possible, but not always the nearest ones. -/

namespace AuthGate.Double

/-- A number of 64 bits times a power of two. -/
structure Scaled where
  digits : Nat
  exponent : Int

namespace Scaled

/-- The same number with the highest of its 64 bits set. -/
def normalize (s : Scaled) : Scaled :=
  let shift := 63 - s.digits.log2
  ⟨s.digits * Nat.pow 2 shift, s.exponent - shift⟩

/-- The number whose unit is `2 ^ e`, which is no coarser than its own. -/
def align (s : Scaled) (e : Int) : Scaled := ⟨s.digits * Nat.pow 2 (s.exponent - e).toNat, e⟩

/-- The product, rounded to 64 bits, a half upwards. -/
def mul (a b : Scaled) : Scaled :=
  ⟨(a.digits * b.digits + 0x8000000000000000) / 0x10000000000000000, a.exponent + b.exponent + 64⟩

/-- The power of ten of an exponent, rounded to 64 bits. -/
def powerOfTen (k : Int) : Scaled :=
  let (num, den) := if 0 ≤ k then (Nat.pow 10 k.toNat, 1) else (1, Nat.pow 10 (-k).toNat)
  let guess : Int := (num.log2 : Int) - (den.log2 : Int) - 63
  let quotient (e : Int) : Nat :=
    let (n, d) := Double.shifted num den (-e)
    (2 * n + d) / (2 * d)
  if quotient guess < 0x8000000000000000 then ⟨quotient (guess - 1), guess - 1⟩
  else if quotient guess < 0x10000000000000000 then ⟨quotient guess, guess⟩
  else ⟨quotient (guess + 1), guess + 1⟩

/-- The exponent of a power of ten that brings a number with unit `2 ^ e` into the range. Only every
    eighth exponent is used. -/
def scalingExponent (e : Int) : Int :=
  let k := 347 - (61 + e) * 30102999566398114 / 100000000000000000
  8 * (k / 8 + 1) - 348

end Scaled

/-- Digits found: they are multiplied with a power of ten. -/
structure Found where
  digits : Nat
  exponent : Int

/-- The last digit lowered as long as that brings the decimal nearer the double: `rest` is what the
    upper end exceeds the decimal by, `distance` what it exceeds the double by, `unit` the worth of
    the last digit, `span` the width within which the decimal must stay. -/
def lower (span unit distance : Nat) : Nat → Nat → Nat → Nat
  | 0, digits, _ => digits
  | fuel + 1, digits, rest =>
    if rest < distance && unit ≤ span - rest &&
        (rest + unit < distance || rest + unit - distance < distance - rest) then
      lower span unit distance fuel (digits - 1) (rest + unit)
    else digits

/-- Digits behind the point: `rest` and `span` are in units of `2 ^ -bits` and grow tenfold with
    every digit. -/
def fractionDigits (bits distance : Nat) : Nat → Nat → Nat → Nat → Nat → Found
  | 0, count, digits, _, _ => ⟨digits, -(count : Int)⟩
  | fuel + 1, count, digits, rest, span =>
    let rest := rest * 10
    let span := span * 10
    let digits := digits * 10 + rest / Nat.pow 2 bits
    let rest := rest % Nat.pow 2 bits
    let count := count + 1
    if rest < span then
      let known := if count < 9 then distance * Nat.pow 10 count else 0
      ⟨lower span (Nat.pow 2 bits) known 10 digits rest, -(count : Int)⟩
    else fractionDigits bits distance fuel count digits rest span

/-- Digits before the point: of `whole` all but the last `kappa` have been taken. -/
def wholeDigits (bits distance span whole fraction : Nat) : Nat → Found
  | 0 => fractionDigits bits distance 20 0 whole fraction span
  | kappa + 1 =>
    let rest := whole % Nat.pow 10 kappa * Nat.pow 2 bits + fraction
    -- The digits taken so far are enough, or one more is taken.
    if rest ≤ span then
      let unit := Nat.pow 10 kappa
      ⟨lower span (unit * Nat.pow 2 bits) distance 10 (whole / unit) rest, kappa⟩
    else wholeDigits bits distance span whole fraction kappa

/-- The digits of a finite double other than zero, and the power of ten they are multiplied with. -/
def bounded (d : Double) : Nat × Int :=
  let m := d.mantissa
  let middle : Scaled := ⟨m, d.scale⟩
  let high := (⟨2 * m + 1, d.scale - 1⟩ : Scaled).normalize
  let low : Scaled :=
    if m = 0x10000000000000 then ⟨4 * m - 1, d.scale - 2⟩ else ⟨2 * m - 1, d.scale - 1⟩
  let low := low.align high.exponent
  let k := Scaled.scalingExponent high.exponent
  let power := Scaled.powerOfTen k
  let w := middle.normalize.mul power
  let top := (high.mul power).digits - 1
  let span := top - ((low.mul power).digits + 1)
  let bits := (-(high.mul power).exponent).toNat
  let whole := top / Nat.pow 2 bits
  let found := wholeDigits bits (top - w.digits) span whole (top % Nat.pow 2 bits)
    (Nat.toDigits 10 whole).length
  (found.digits, found.exponent - k)

/-- The text of a finite double with these digits. -/
def renderBounded (l : DecimalLayout) (d : Double) : List Char :=
  let size :=
    if d.mantissa = 0 then ['0', '.', '0']
    else
      let (digits, e) := d.bounded
      layOut l digits e
  if d.isNegative then '-' :: size else size

end AuthGate.Double
