set_option autoImplicit false

/-! # Whole numbers in text

Decimal and hexadecimal digits, and the reading of whole numbers with an optional sign. The
readers take the whole text or nothing: no blanks, no separators, at least one digit. -/

namespace AuthGate.Text

/-- Whether the character is one of `0` to `9`. -/
def isDigit (c : Char) : Bool := '0' ≤ c && c ≤ '9'

/-- The value of a digit in bases up to sixteen, in either case. -/
def digitValue? (c : Char) : Option Nat :=
  if '0' ≤ c && c ≤ '9' then some (c.toNat - '0'.toNat)
  else if 'a' ≤ c && c ≤ 'f' then some (c.toNat - 'a'.toNat + 10)
  else if 'A' ≤ c && c ≤ 'F' then some (c.toNat - 'A'.toNat + 10)
  else none

/-- The lower-case digit of a value below sixteen. -/
def hexDigit (n : Nat) : Char :=
  if n < 10 then Char.ofNat ('0'.toNat + n) else Char.ofNat ('a'.toNat + (n - 10))

/-- Digits of the base continued onto the value read so far; none if a character is no digit. -/
def continueNat? (base : Nat) : Nat → List Char → Option Nat
  | acc, [] => some acc
  | acc, c :: cs =>
    match digitValue? c with
    | some d => if d < base then continueNat? base (acc * base + d) cs else none
    | none => none

/-- At least one digit of the base and nothing else. -/
def natInBase? (base : Nat) : List Char → Option Nat
  | [] => none
  | c :: cs => continueNat? base 0 (c :: cs)

/-- A number without a sign or after a single `+`. -/
def unsignedInBase? (base : Nat) : List Char → Option Nat
  | '+' :: cs => natInBase? base cs
  | cs => natInBase? base cs

/-- A number with an optional sign. -/
def signedInBase? (base : Nat) : List Char → Option Int
  | '-' :: cs => (natInBase? base cs).map fun n => -(n : Int)
  | cs => (unsignedInBase? base cs).map fun n => (n : Int)

/-- Whether a whole number fits a signed word of 64 bits. -/
def fitsInt64 (i : Int) : Bool := -(0x8000000000000000) ≤ i && i < 0x8000000000000000

/-- Whether a whole number fits a word of 64 bits. -/
def fitsWord64 (n : Nat) : Bool := n < 0x10000000000000000

/-- A signed 64-bit number in decimal. -/
def int64? (cs : List Char) : Option Int :=
  (signedInBase? 10 cs).filter fitsInt64

/-- An unsigned 64-bit number in decimal, an optional `+` before it. -/
def word64? (cs : List Char) : Option Nat :=
  (unsignedInBase? 10 cs).filter fitsWord64

/-- The decimal text of a whole number, `-` before it if negative. -/
def ofInt (i : Int) : List Char :=
  if i < 0 then '-' :: Nat.toDigits 10 i.natAbs else Nat.toDigits 10 i.natAbs

/-- The lower-case hexadecimal digits of a number, without leading zeros. -/
def hexOfNat (n : Nat) : List Char := Nat.toDigits 16 n

/-- The digits `ds` with zeros before them up to the width. -/
def padLeft (width : Nat) (ds : List Char) : List Char :=
  List.replicate (width - ds.length) '0' ++ ds

end AuthGate.Text
