set_option autoImplicit false

/-! # Varints

Whole numbers of 64 bits in seven-bit groups, the least significant first; every byte but the last
has its high bit set. Reading takes at most ten bytes and refuses a tenth that carries more than
the one bit left. -/

namespace AuthGate.Proto

/-- A reader of something from bytes: what it read and what is left. -/
abbrev Reader (α : Type) := List UInt8 → Option (α × List UInt8)

namespace Varint

/-- The bytes of a number that `groups` groups of seven bits hold. -/
def encodeGroups : Nat → Nat → List UInt8
  | 0, _ => []
  | groups + 1, n =>
    if n < 128 then [n.toUInt8] else (128 + n % 128).toUInt8 :: encodeGroups groups (n / 128)

/-- The bytes of a number below `2 ^ 64`. -/
def encode (n : Nat) : List UInt8 := encodeGroups 10 n

/-- A number of at most so many groups, its value counted from `2 ^ shift` on. -/
def decodeGroups : Nat → Nat → Reader Nat
  | 0, _, _ => none
  | _ + 1, _, [] => none
  | groups + 1, shift, b :: bs =>
    let n := b.toNat
    if n < 128 then
      if groups = 0 && 2 ≤ n then none else some (n * Nat.pow 2 shift, bs)
    else do
      let (m, rest) ← decodeGroups groups (shift + 7) bs
      return ((n - 128) * Nat.pow 2 shift + m, rest)

/-- A number. -/
def decode : Reader Nat := decodeGroups 10 0

end Varint

end AuthGate.Proto
