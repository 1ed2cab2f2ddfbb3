import AuthGate.Text.CharClass
import AuthGate.Text.Digits

set_option autoImplicit false

/-! # Quoted text in messages

A text or a character that a message repeats stands between quotes, so that where it ends and
what cannot be seen in it are plain. -/

namespace AuthGate.Text

/-- One character of a quoted text; `quote` is the quote around it. -/
def quotedChar (quote c : Char) : List Char :=
  if c = '\x00' then ['\\', '0']
  else if c = '\t' then ['\\', 't']
  else if c = '\n' then ['\\', 'n']
  else if c = '\r' then ['\\', 'r']
  else if c = '\\' || c = quote then ['\\', c]
  else if isExtending c || !isPrinted c then
    ['\\', 'u', '\x7b'] ++ hexOfNat c.toNat ++ ['\x7d']
  else [c]

/-- The text between double quotes. -/
def quoted (s : String) : String :=
  String.ofList ('"' :: s.toList.flatMap (quotedChar '"') ++ ['"'])

/-- The character between single quotes. -/
def quotedOne (c : Char) : String := String.ofList ('\'' :: quotedChar '\'' c ++ ['\''])

end AuthGate.Text
