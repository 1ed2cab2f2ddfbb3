import AuthGate.Decimal.Double

set_option autoImplicit false

/-! # The shortest decimal of a double

The decimal that stands for a double is the one with the fewest digits among those that read back
as it, and of these the nearest. On the grid of multiples of a power of ten only the two neighbours
of the exact value can be that decimal, so each grid, from coarse to fine, is tried with those. -/

namespace AuthGate

namespace Double

/-- The reals that round to a double, and the double itself, as multiples of `2 ^ unit`. -/
structure Span where
  low : Nat
  value : Nat
  high : Nat
  unit : Int
  /-- Whether the ends themselves round to the double. -/
  closed : Bool

/-- The span of a finite double: half way to its neighbours. The neighbour below a power of two is
    only half as far as the one above, except at the least exponents. -/
def span (d : Double) : Span :=
  let m := d.mantissa
  let near := m = 0x10000000000000 && 1 < d.exponentField
  { low := 4 * m - (if near then 1 else 2), value := 4 * m, high := 4 * m + 2,
    unit := d.scale - 2, closed := m % 2 = 0 }

/-- `a * 10 ^ e` and `b * 2 ^ f` as whole numbers over one denominator. -/
def overCommon (a : Nat) (e : Int) (b : Nat) (f : Int) : Nat × Nat :=
  (a * Nat.pow 10 e.toNat * Nat.pow 2 (-f).toNat, b * Nat.pow 2 f.toNat * Nat.pow 10 (-e).toNat)

/-- Whether `digits * 10 ^ e` rounds to the double with this span. -/
def Span.contains (s : Span) (digits : Nat) (e : Int) : Bool :=
  let (x, low) := overCommon digits e s.low s.unit
  let (_, high) := overCommon digits e s.high s.unit
  if s.closed then low ≤ x && x ≤ high else low < x && x < high

/-- The multiple of `10 ^ e` that reads back as the double and is nearest it, if there is one. -/
def Span.onGrid? (s : Span) (e : Int) : Option Nat :=
  let (_, num) := overCommon 1 e s.value s.unit
  let (den, _) := overCommon 1 e s.value s.unit
  let below := num / den
  let above := below + 1
  match s.contains below e, s.contains above e with
  | true, true =>
    let r := num % den
    some (if 2 * r < den then below else if den < 2 * r then above
      else if below % 2 = 0 then below else above)
  | true, false => some below
  | false, true => some above
  | false, false => none

/-- The first grid, from `10 ^ e` downwards, that has a decimal for the double. -/
def Span.coarsest (s : Span) : Nat → Int → Nat × Int
  | 0, e => (0, e)
  | fuel + 1, e =>
    match s.onGrid? e with
    | some 0 => coarsest s fuel (e - 1)
    | some n => (n, e)
    | none => coarsest s fuel (e - 1)

/-- The size of a number `m * 2 ^ q` as a power of ten, at most one too large. -/
def magnitude (m : Nat) (q : Int) : Int :=
  if 0 ≤ q then ((Nat.toDigits 10 (m * Nat.pow 2 q.toNat)).length : Int)
  else
    let whole := m / Nat.pow 2 (-q).toNat
    if 0 < whole then ((Nat.toDigits 10 whole).length : Int)
    else 1 - ((Nat.toDigits 10 (Nat.pow 2 (-q).toNat / m)).length : Int)

/-- The digits of a finite double other than zero, and the power of ten they are multiplied
    with; the digits do not end in zero. -/
def shortest (d : Double) : Nat × Int :=
  let top := magnitude d.mantissa d.scale + 1
  d.span.coarsest 24 top

end Double

/-- How a decimal is laid out: the exponents of its first digit, counted so that `0.1` has 0 and
    `1` has 1, that are written positionally, and whether other positive exponents have a sign. -/
structure DecimalLayout where
  above : Int
  upTo : Int
  plus : Bool

namespace Double

/-- The text of digits times a power of ten; there is always a point or an exponent. -/
def layOut (l : DecimalLayout) (digits : Nat) (e : Int) : List Char :=
  let ds := Nat.toDigits 10 digits
  let point : Int := ds.length + e
  if 0 < point && point ≤ l.upTo then
    if 0 ≤ e then ds ++ List.replicate e.toNat '0' ++ ['.', '0']
    else ds.take point.toNat ++ ['.'] ++ ds.drop point.toNat
  else if l.above < point && point ≤ 0 then
    ['0', '.'] ++ List.replicate (-point).toNat '0' ++ ds
  else
    let mark := if point - 1 < 0 then ['e', '-'] else if l.plus then ['e', '+'] else ['e']
    let exponent := mark ++ Nat.toDigits 10 (point - 1).natAbs
    match ds with
    | [] => exponent
    | [c] => c :: exponent
    | c :: cs => c :: '.' :: cs ++ exponent

/-- The text of a finite double. -/
def render (l : DecimalLayout) (d : Double) : List Char :=
  let size :=
    if d.mantissa = 0 then ['0', '.', '0']
    else
      let (digits, e) := d.shortest
      layOut l digits e
  if d.isNegative then '-' :: size else size

end Double

end AuthGate
