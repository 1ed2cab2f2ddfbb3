import AuthGate.Text.Blank
import AuthGate.Text.Digits
import AuthGate.Text.Utf8

set_option autoImplicit false

/-! # Percent encoding and form data

A byte may be written as `%` and two hexadecimal digits. Form data are pieces between `&`, each a
name, `=` and a value, in which `+` is a space and the rest is percent-encoded UTF-8. -/

namespace AuthGate.Text

/-! ## Percent encoding -/

/-- The byte of an ASCII character. -/
def byte (c : Char) : UInt8 := c.toNat.toUInt8

/-- The value of a byte that is a hexadecimal digit. -/
def hexByte? (b : UInt8) : Option Nat := digitValue? (Char.ofNat b.toNat)

/-- The bytes with every escape replaced; a `%` without two digits after it stays. -/
def percentDecode : List UInt8 → List UInt8
  | [] => []
  | b :: rest =>
    if b = byte '%' then
      match rest with
      | h :: l :: rest' =>
        match hexByte? h, hexByte? l with
        | some high, some low => (high * 16 + low).toUInt8 :: percentDecode rest'
        | _, _ => b :: percentDecode (h :: l :: rest')
      | rest => b :: percentDecode rest
    else b :: percentDecode rest

/-- The upper-case hexadecimal digit of a value below sixteen. -/
def upperHexDigit (n : Nat) : Char :=
  if n < 10 then Char.ofNat ('0'.toNat + n) else Char.ofNat ('A'.toNat + (n - 10))

/-- The escape of a byte. -/
def percentByte (b : UInt8) : List Char :=
  ['%', upperHexDigit (b.toNat / 16), upperHexDigit (b.toNat % 16)]

/-- Whether a byte is an ASCII letter or digit. -/
def isAlphanumeric (b : UInt8) : Bool :=
  let c := Char.ofNat b.toNat
  isDigit c || ('a' ≤ c && c ≤ 'z') || ('A' ≤ c && c ≤ 'Z')

/-- A text with every byte escaped that is no ASCII letter or digit. -/
def percentEncode (s : List Char) : List Char :=
  (Utf8.encode s).flatMap fun b =>
    if isAlphanumeric b then [Char.ofNat b.toNat] else percentByte b

/-! ## Form data -/

/-- The text of a name or a value. -/
def formDecode (bs : List UInt8) : String :=
  let spaced := bs.map fun b => if b = byte '+' then byte ' ' else b
  String.ofList (Utf8.decodeLossy (percentDecode spaced))

/-- The bytes before the first `sep` and those after it, all and none if there is no `sep`. -/
def splitAtByte (sep : UInt8) (bs : List UInt8) : List UInt8 × List UInt8 :=
  (bs.takeWhile (· != sep), (bs.dropWhile (· != sep)).drop 1)

/-- The name and the value of a piece. -/
def formPair (piece : List UInt8) : String × String :=
  let (name, value) := splitAtByte (byte '=') piece
  (formDecode name, formDecode value)

/-- The names and values of form data in order; empty pieces count for nothing. -/
def formPairs (bs : List UInt8) : List (String × String) :=
  ((splitAll (byte '&') bs).filter (!·.isEmpty)).map formPair

/-- A name or a value as form data. -/
def formEncode (s : List Char) : List Char :=
  (Utf8.encode s).flatMap fun b =>
    if b = byte ' ' then ['+']
    else if isAlphanumeric b || ['*', '-', '.', '_'].any fun c => byte c = b then
      [Char.ofNat b.toNat]
    else percentByte b

/-- Names and values as form data. -/
def formText : List (String × String) → List Char
  | [] => []
  | [(k, v)] => formEncode k.toList ++ '=' :: formEncode v.toList
  | (k, v) :: p :: ps =>
    formEncode k.toList ++ '=' :: formEncode v.toList ++ '&' :: formText (p :: ps)

end AuthGate.Text
