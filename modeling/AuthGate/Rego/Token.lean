import AuthGate.Json.Parser
import AuthGate.EntryPoint.Basic

set_option autoImplicit false

/-! # Tokens of Rego

A text is cut into words, literals and signs. Blanks and comments stand between tokens; of them only
matters whether a token follows the one before it at once, and on the same line. -/

namespace AuthGate.Rego

/-- A token. -/
inductive Token where
  | word (s : String)
  | text (s : String)
  | number (n : Number)
  | sign (s : String)
  deriving DecidableEq

/-- How a token follows the one before it. -/
inductive Gap where
  | none
  | blank
  | newline
  deriving DecidableEq, Repr

/-- A token in its place. -/
structure Lexeme where
  gap : Gap
  token : Token

/-- The wider of two gaps. -/
def Gap.join : Gap → Gap → Gap
  | .newline, _ => .newline
  | _, .newline => .newline
  | .none, g => g
  | g, _ => g

/-- Signs of two characters. -/
def longSigns : List (List Char) :=
  [[':', '='], ['=', '='], ['!', '='], ['<', '='], ['>', '=']]

/-- Signs of one character. -/
def shortSigns : List Char :=
  ['\x7b', '\x7d', '[', ']', '(', ')', ',', ';', ':', '=', '.', '<', '>', '+', '-', '*', '/', '%',
    '&', '|']

/-- The sign that a text begins with. -/
def sign? (cs : List Char) : Option (Token × List Char) :=
  if longSigns.contains (cs.take 2) then some (.sign (String.ofList (cs.take 2)), cs.drop 2)
  else
    match cs with
    | c :: rest => if shortSigns.contains c then some (.sign (String.ofList [c]), rest) else none
    | [] => none

/-- The token that a text begins with. -/
def token? : List Char → Option (Token × List Char)
  | [] => none
  | '"' :: rest => do
    let (s, rest) ← Json.Literal.body? rest
    return (.text (String.ofList s), rest)
  | '\x60' :: rest =>
    match Text.splitOnce '\x60' rest with
    | some (s, rest) => some (.text (String.ofList s), rest)
    | none => none
  | c :: cs =>
    if EntryPoint.isInitial c then
      some (.word (String.ofList (c :: cs.takeWhile EntryPoint.isMedial)),
        cs.dropWhile EntryPoint.isMedial)
    else if Text.isDigit c then do
      let (n, rest) ← Json.number? (c :: cs)
      return (.number n, rest)
    else sign? (c :: cs)

/-- The tokens of a text, the gap before the first being given. Every token takes at least one
    character, so that `fuel` may be the length of the text. -/
def lexemesFrom : Nat → Gap → List Char → Option (List Lexeme)
  | _, _, [] => some []
  | 0, _, _ => none
  | fuel + 1, gap, c :: cs =>
    if c = '\n' then lexemesFrom fuel .newline cs
    else if c = ' ' || c = '\t' || c = '\r' then lexemesFrom fuel (gap.join .blank) cs
    else if c = '#' then
      lexemesFrom fuel (gap.join .blank) (cs.dropWhile (· != '\n'))
    else do
      let (token, rest) ← token? (c :: cs)
      let later ← lexemesFrom fuel .none rest
      return ⟨gap, token⟩ :: later

/-- The tokens of a text. -/
def lexemes? (cs : List Char) : Option (List Lexeme) := lexemesFrom cs.length .newline cs

end AuthGate.Rego
