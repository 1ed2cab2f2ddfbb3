import AuthGate.Text.Base64
import Mathlib.Logic.Function.Basic

set_option autoImplicit false

/-! # Base64 loses nothing

The text of bytes can be read back (`decode_encode`), so that different bytes have different texts
(`encode_injective`). -/

namespace AuthGate.Text.Base64

/-- The value of a digit. -/
def value (c : Char) : Nat :=
  if 'A' ≤ c && c ≤ 'Z' then c.toNat - 'A'.toNat
  else if 'a' ≤ c && c ≤ 'z' then c.toNat - 'a'.toNat + 26
  else if '0' ≤ c && c ≤ '9' then c.toNat - '0'.toNat + 52
  else if c = '+' then 62
  else 63

/-- The bytes of a text, four digits at a time. -/
def decode : List Char → List UInt8
  | p :: q :: r :: s :: rest =>
    let first := (value p * 4 + value q / 16).toUInt8
    let second := (value q % 16 * 16 + value r / 4).toUInt8
    if r = '=' then [first]
    else if s = '=' then [first, second]
    else first :: second :: (value r % 4 * 64 + value s).toUInt8 :: decode rest
  | _ => []

theorem value_digit {n : Nat} (h : n < 64) : value (digit n) = n := by
  have hall : ∀ n : Fin 64, value (digit n.val) = n.val := by decide
  exact hall ⟨n, h⟩

theorem digit_ne_pad {n : Nat} (h : n < 64) : digit n ≠ '=' := by
  have hall : ∀ n : Fin 64, digit n.val ≠ '=' := by decide
  exact hall ⟨n, h⟩

/-- A byte put together from its bits. -/
theorem toUInt8_eq {n : Nat} {b : UInt8} (h : n = b.toNat) : n.toUInt8 = b := by
  rw [h]
  exact UInt8.ofNat_toNat

theorem decode_encode (bs : List UInt8) : decode (encode bs) = bs := by
  induction bs using encode.induct with
  | case1 => rfl
  | case2 a =>
    have ha := a.toNat_lt
    rw [encode, decode, if_pos rfl, value_digit (by omega), value_digit (by omega)]
    rw [toUInt8_eq (show _ = a.toNat by omega)]
  | case3 a b =>
    have ha := a.toNat_lt
    have hb := b.toNat_lt
    rw [encode, decode, if_neg (digit_ne_pad (by omega)), if_pos rfl, value_digit (by omega),
      value_digit (by omega), value_digit (by omega)]
    rw [toUInt8_eq (show _ = a.toNat by omega), toUInt8_eq (show _ = b.toNat by omega)]
  | case4 a b c rest ih =>
    have ha := a.toNat_lt
    have hb := b.toNat_lt
    have hc := c.toNat_lt
    rw [encode, decode, if_neg (digit_ne_pad (by omega)), if_neg (digit_ne_pad (by omega)),
      value_digit (by omega), value_digit (by omega), value_digit (by omega),
      value_digit (by omega), ih]
    rw [toUInt8_eq (show _ = a.toNat by omega), toUInt8_eq (show _ = b.toNat by omega),
      toUInt8_eq (show _ = c.toNat by omega)]

theorem encode_injective : Function.Injective encode := Function.LeftInverse.injective decode_encode

end AuthGate.Text.Base64
