import AuthGate.Text.Digits

set_option autoImplicit false

/-! # JSON string literals

A text between double quotes, and back. Writing escapes quotes, backslashes and control
characters and nothing else. Reading takes every escape of the format: a surrogate must come as a
pair, and a control character must be escaped. -/

namespace AuthGate.Json.Literal

/-! ## Writing -/

/-- One character of a literal. -/
def encodeChar (c : Char) : List Char :=
  if c = '"' then ['\\', '"']
  else if c = '\\' then ['\\', '\\']
  else if c.toNat = 8 then ['\\', 'b']
  else if c.toNat = 12 then ['\\', 'f']
  else if c = '\n' then ['\\', 'n']
  else if c = '\r' then ['\\', 'r']
  else if c = '\t' then ['\\', 't']
  else if c.toNat < 32 then
    ['\\', 'u', '0', '0', Text.hexDigit (c.toNat / 16), Text.hexDigit (c.toNat % 16)]
  else [c]

/-- The literal of a text, with its quotes. -/
def encode (s : List Char) : List Char := '"' :: (s.flatMap encodeChar ++ ['"'])

/-! ## Reading -/

/-- The value of four hexadecimal digits. -/
def hex4? (a b c d : Char) : Option Nat := do
  let a ← Text.digitValue? a
  let b ← Text.digitValue? b
  let c ← Text.digitValue? c
  let d ← Text.digitValue? d
  return ((a * 16 + b) * 16 + c) * 16 + d

/-- The character of an escape of one letter. -/
def escaped? (c : Char) : Option Char :=
  match c with
  | '"' => some '"'
  | '\\' => some '\\'
  | '/' => some '/'
  | 'b' => some (Char.ofNat 8)
  | 'f' => some (Char.ofNat 12)
  | 'n' => some '\n'
  | 'r' => some '\r'
  | 't' => some '\t'
  | _ => none

def isHighSurrogate (n : Nat) : Bool := 0xD800 ≤ n && n < 0xDC00

def isLowSurrogate (n : Nat) : Bool := 0xDC00 ≤ n && n < 0xE000

/-- The character of a pair of surrogates. -/
def pair (high low : Nat) : Char :=
  Char.ofNat (0x10000 + (high - 0xD800) * 0x400 + (low - 0xDC00))

/-- The text up to the closing quote, after the opening one, and what follows the closing one. -/
def body? : List Char → Option (List Char × List Char)
  | [] => none
  | '"' :: rest => some ([], rest)
  | '\\' :: 'u' :: a :: b :: c :: d :: rest => do
    let n ← hex4? a b c d
    if isHighSurrogate n then
      match rest with
      | '\\' :: 'u' :: a :: b :: c :: d :: rest => do
        let m ← hex4? a b c d
        if isLowSurrogate m then
          let (text, rest) ← body? rest
          return (pair n m :: text, rest)
        else none
      | _ => none
    else if isLowSurrogate n then none
    else do
      let (text, rest) ← body? rest
      return (Char.ofNat n :: text, rest)
  | '\\' :: c :: rest => do
    let c ← escaped? c
    let (text, rest) ← body? rest
    return (c :: text, rest)
  | c :: rest =>
    if c = '\\' || c.toNat < 32 then none
    else do
      let (text, rest) ← body? rest
      return (c :: text, rest)

/-- The text of a literal and what follows it. -/
def decode? : List Char → Option (List Char × List Char)
  | '"' :: rest => body? rest
  | _ => none

/-- What follows the literal's closing quote, counted from the opening one: the first quote that
    no backslash escapes. Nothing else of the literal is looked at. -/
def afterQuote? : List Char → Option (List Char)
  | [] => none
  | '\\' :: _ :: rest => afterQuote? rest
  | '"' :: rest => some rest
  | _ :: rest => afterQuote? rest

end AuthGate.Json.Literal
