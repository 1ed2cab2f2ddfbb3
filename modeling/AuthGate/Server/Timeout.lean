import AuthGate.Text.Digits

set_option autoImplicit false

/-! # Timeouts of calls

A caller says in a header how long it waits: a number of at most eight digits and a unit. -/

namespace AuthGate.Timeout

/-- The nanoseconds of a unit. -/
def unit? : Char → Option Nat
  | 'H' => some 3600000000000
  | 'M' => some 60000000000
  | 'S' => some 1000000000
  | 'm' => some 1000000
  | 'u' => some 1000
  | 'n' => some 1
  | _ => none

/-- The nanoseconds of a timeout of two to nine characters. -/
def ofChars? (cs : List Char) : Option Nat :=
  if cs.length < 2 || 9 < cs.length then none
  else do
    let unit ← cs.getLast?.bind unit?
    let amount ← Text.word64? cs.dropLast
    return amount * unit

/-- Whether a byte is text: visible ASCII, a space or a tab. -/
def isText (b : UInt8) : Bool := b == 9 || (32 ≤ b && b < 127)

/-- Whether a byte may stand in a header at all. -/
def isAllowed (b : UInt8) : Bool := b == 9 || (32 ≤ b && b != 127)

/-- The nanoseconds of a header's value, if it is text and a timeout. -/
def ofHeader? (value : List UInt8) : Option Nat :=
  if value.all isText then ofChars? (value.map fun b => Char.ofNat b.toNat) else none

end AuthGate.Timeout
