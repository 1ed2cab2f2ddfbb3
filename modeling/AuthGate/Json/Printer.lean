import AuthGate.Decimal.Shortest
import AuthGate.Json.Basic
import AuthGate.Json.Literal

set_option autoImplicit false

/-! # JSON text

A document without blanks, the fields of an object in their order. -/

namespace AuthGate

namespace Number

/-- Doubles are positional from `1e-5` up to `1e16`, and a positive exponent has a sign. -/
def layout : DecimalLayout := ⟨-5, 16, true⟩

/-- The text of a number. -/
def render : Number → List Char
  | .whole w => Text.ofInt w.value
  | .double d => d.render layout

end Number

namespace Json

mutual

/-- The text of a document. -/
def chars : Json → List Char
  | .null => ['n', 'u', 'l', 'l']
  | .bool true => ['t', 'r', 'u', 'e']
  | .bool false => ['f', 'a', 'l', 's', 'e']
  | .number n => n.render
  | .string s => Literal.encode s.toList
  | .array items => '[' :: (itemChars items ++ [']'])
  | .object fields => '\x7b' :: (fieldChars fields ++ ['\x7d'])

/-- The items of an array with commas between them. -/
def itemChars : List Json → List Char
  | [] => []
  | [v] => chars v
  | v :: w :: rest => chars v ++ ',' :: itemChars (w :: rest)

/-- The fields of an object with commas between them. -/
def fieldChars : List (String × Json) → List Char
  | [] => []
  | [(k, v)] => Literal.encode k.toList ++ ':' :: chars v
  | (k, v) :: w :: rest =>
    Literal.encode k.toList ++ ':' :: (chars v ++ ',' :: fieldChars (w :: rest))

end

/-- The text of a document. -/
def render (v : Json) : String := String.ofList v.chars

/-- The literal of a text. -/
def quote (s : String) : String := String.ofList (Literal.encode s.toList)

end Json

end AuthGate
