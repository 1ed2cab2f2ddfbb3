set_option autoImplicit false

/-! # Positions in a YAML text

Indentation and the reach of a key depend on where a token stands, so the text still to come is
carried together with its index, line and column. -/

namespace AuthGate.Yaml

/-- The text still to come and where it begins. -/
structure Cursor where
  rest : List Char
  index : Nat
  line : Nat
  column : Nat

/-- The characters that end a line. -/
def isBreak (c : Char) : Bool :=
  c == '\n' || c == '\r' || c.toNat == 0x85 || c.toNat == 0x2028 || c.toNat == 0x2029

/-- Space and tab. -/
def isBlank (c : Char) : Bool := c == ' ' || c == '\t'

/-- A character that a text may contain: no control character but tab, line feed, carriage return
    and next line. -/
def isAllowed (c : Char) : Bool :=
  let n := c.toNat
  n == 9 || n == 10 || n == 13 || (0x20 ≤ n && n ≤ 0x7E) || n == 0x85 || (0xA0 ≤ n && n ≤ 0xFFFD)
    || 0x10000 ≤ n

/-- The byte-order mark, which may stand before the text. -/
def isMark (c : Char) : Bool := c.toNat == 0xFEFF

/-- What a line break is read as: a line feed, but the two Unicode separators stay. -/
def breakText (c : Char) : Char :=
  if c.toNat == 0x2028 || c.toNat == 0x2029 then c else '\n'

namespace Cursor

def start (cs : List Char) : Cursor := ⟨cs, 0, 0, 0⟩

/-- Past one character that ends no line. -/
def advance (c : Cursor) : Cursor :=
  match c.rest with
  | [] => c
  | _ :: cs => { c with rest := cs, index := c.index + 1, column := c.column + 1 }

/-- Past `n` characters that end no line. -/
def advanceBy : Nat → Cursor → Cursor
  | 0, c => c
  | n + 1, c => advanceBy n c.advance

/-- Past one line break; a carriage return and a line feed are one. -/
def newLine (c : Cursor) : Cursor :=
  match c.rest with
  | '\r' :: '\n' :: cs => ⟨cs, c.index + 2, c.line + 1, 0⟩
  | _ :: cs => ⟨cs, c.index + 1, c.line + 1, 0⟩
  | [] => c

/-- The next character. -/
def peek? (c : Cursor) : Option Char := c.rest.head?

/-- The character after `n` others. -/
def peekAt? (c : Cursor) (n : Nat) : Option Char := (c.rest.drop n).head?

/-- Whether the text, after `n` characters, goes on with a blank, a line break or not at all. -/
def gapAt (c : Cursor) (n : Nat) : Bool :=
  match c.peekAt? n with
  | none => true
  | some ch => isBlank ch || isBreak ch

/-- Whether a line that marks the start or the end of a document begins here. -/
def atMarker (c : Cursor) (ch : Char) : Bool :=
  c.column == 0 && [ch, ch, ch].isPrefixOf c.rest && c.gapAt 3

/-- Whether either kind of marker line begins here. -/
def atAnyMarker (c : Cursor) : Bool := c.atMarker '-' || c.atMarker '.'

end Cursor

end AuthGate.Yaml
