set_option autoImplicit false

/-! # Double-precision numbers

A double is its 64 bits. A finite one is a whole number of at most 53 bits, the mantissa, times a
power of two; everything here computes on those two exactly and rounds once, to the nearest double,
a tie to the even mantissa. -/

namespace AuthGate

/-- A double-precision number. -/
structure Double where
  bits : UInt64
  deriving DecidableEq, Repr, Inhabited

namespace Double

/-- Whether the sign bit is set. -/
def isNegative (d : Double) : Bool := 0x8000000000000000 ≤ d.bits.toNat

/-- The eleven bits of the exponent. -/
def exponentField (d : Double) : Nat := d.bits.toNat / 0x10000000000000 % 2048

/-- The fifty-two bits of the fraction. -/
def fraction (d : Double) : Nat := d.bits.toNat % 0x10000000000000

/-- Neither infinite nor not a number. -/
def isFinite (d : Double) : Bool := d.exponentField != 2047

/-- Not a number. -/
def isNaN (d : Double) : Bool := d.exponentField == 2047 && d.fraction != 0

/-- The whole number whose product with `2 ^ d.scale` is the size of a finite `d`. -/
def mantissa (d : Double) : Nat :=
  if d.exponentField = 0 then d.fraction else d.fraction + 0x10000000000000

/-- The power of two that `d.mantissa` is multiplied with. -/
def scale (d : Double) : Int := (max d.exponentField 1 : Nat) - 1075

/-- The double with the other sign. -/
def negate (d : Double) : Double := ⟨d.bits ^^^ 0x8000000000000000⟩

/-- The double with this sign and size bits. -/
def ofParts (negative : Bool) (size : Nat) : Double :=
  ⟨(size + if negative then 0x8000000000000000 else 0).toUInt64⟩

def infinity (negative : Bool) : Double := ofParts negative (2047 * 0x10000000000000)

def zero (negative : Bool) : Double := ofParts negative 0

/-- The quotient rounded to the nearest whole number, a tie to the even one. -/
def roundDiv (num den : Nat) : Nat :=
  let q := num / den
  let r := num % den
  if 2 * r < den then q else if den < 2 * r then q + 1 else if q % 2 = 0 then q else q + 1

/-- The numerator and denominator of `num / den * 2 ^ e`. -/
def shifted (num den : Nat) (e : Int) : Nat × Nat :=
  if 0 ≤ e then (num * Nat.pow 2 e.toNat, den) else (num, den * Nat.pow 2 (-e).toNat)

/-- The least scale at which the quotient has at most 53 bits, and not below the least scale. -/
def scaleFor (num den : Nat) : Int :=
  let guess : Int := (num.log2 : Int) - (den.log2 : Int) - 53
  let fits (e : Int) : Bool :=
    let (n, d) := shifted num den (-e)
    n < d * 0x20000000000000
  max (if fits guess then guess else guess + 1) (-1074)

/-- The double nearest `num / den`, infinite beyond the largest. -/
def ofRatio (negative : Bool) (num den : Nat) : Double :=
  if num = 0 then zero negative
  else
    let e := scaleFor num den
    let (n, d) := shifted num den (-e)
    let size := (e + 1074).toNat * 0x10000000000000 + roundDiv n d
    if 2047 * 0x10000000000000 ≤ size then infinity negative else ofParts negative size

/-- The double nearest `m * 2 ^ e`. -/
def ofScaled (negative : Bool) (m : Nat) (e : Int) : Double :=
  let (n, d) := shifted m 1 e
  ofRatio negative n d

/-- The double nearest a whole number. -/
def ofInt (i : Int) : Double := ofRatio (i < 0) i.natAbs 1

/-- The double nearest `m * 10 ^ e`. -/
def ofDecimal (negative : Bool) (m : Nat) (e : Int) : Double :=
  if 0 ≤ e then ofRatio negative (m * Nat.pow 10 e.toNat) 1
  else ofRatio negative m (Nat.pow 10 (-e).toNat)

/-- The product of two finite doubles. -/
def mul (a b : Double) : Double :=
  ofScaled (a.isNegative != b.isNegative) (a.mantissa * b.mantissa) (a.scale + b.scale)

/-- The quotient of two finite doubles, the second not zero. -/
def div (a b : Double) : Double :=
  let (n, d) := shifted a.mantissa b.mantissa (a.scale - b.scale)
  ofRatio (a.isNegative != b.isNegative) n d

/-- The size of a finite double as a multiple of `2 ^ (-1074)`, with its sign. -/
def inLeastUnits (d : Double) : Int :=
  let m : Int := d.mantissa * Nat.pow 2 (d.scale + 1074).toNat
  if d.isNegative then -m else m

/-- The sum of two finite doubles; a sum of zero is negative only if both are. -/
def add (a b : Double) : Double :=
  let s := a.inLeastUnits + b.inLeastUnits
  if s = 0 then zero (a.isNegative && b.isNegative)
  else ofScaled (s < 0) s.natAbs (-1074)

/-- Comparison of finite doubles by value. -/
def le (a b : Double) : Bool := a.inLeastUnits ≤ b.inLeastUnits

/-- The whole number that a finite double equals, if it is one. -/
def toInt? (d : Double) : Option Int :=
  if d.isFinite then
    let (n, m) := shifted d.mantissa 1 d.scale
    let size : Nat := n / m
    if n = size * m then some (if d.isNegative then -(size : Int) else size) else none
  else none

/-- The double equal to a single-precision number given by its 32 bits. -/
def ofSingle (bits : UInt32) : Double :=
  let n := bits.toNat
  let negative := decide (0x80000000 ≤ n)
  let exponent : Nat := n / 0x800000 % 256
  let fraction : Nat := n % 0x800000
  if exponent = 255 then
    ofParts negative (2047 * 0x10000000000000 + fraction * 0x20000000)
  else if exponent = 0 then ofScaled negative fraction (-149)
  else ofScaled negative (fraction + 0x800000) ((exponent : Int) - 150)

end Double

end AuthGate
