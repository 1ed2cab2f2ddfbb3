import AuthGate.Text.Digits
import AuthGate.Yaml.Cursor

set_option autoImplicit false

/-! # YAML tokens

The dialect has block and flow collections, plain, single-quoted and double-quoted scalars,
comments and document markers. Anchors, aliases, tags, block scalars and directives are not part
of it, and a text that uses them is refused.

Indentation becomes tokens of its own, `blockSequence`, `blockMapping` and `blockEnd`. Whether a
scalar or a flow collection is a key shows only at the `:` after it, on the same line and at most
1024 characters on; until then the place where a `key` token would stand is remembered. -/

namespace AuthGate.Yaml

/-- One token. A scalar is plain or quoted. -/
inductive Token where
  | documentStart
  | documentEnd
  | blockSequence
  | blockMapping
  | blockEnd
  | flowSequenceStart
  | flowSequenceEnd
  | flowMappingStart
  | flowMappingEnd
  | blockEntry
  | flowEntry
  | key
  | value
  | scalar (plain : Bool) (text : String)
  deriving DecidableEq, Repr

/-! ## Scalars -/

/-- Line breaks and blanks inside a scalar, not yet part of its text: blanks on one line, or after
    a first break the breaks after it. -/
structure Gap where
  blanks : List Char
  first : Option Char
  more : List Char

namespace Gap

def none : Gap := ⟨[], Option.none, []⟩

/-- What the gap contributes to the text: a single break becomes a space. -/
def fold (g : Gap) : List Char :=
  match g.first with
  | Option.none => g.blanks ++ g.more
  | some '\n' => if g.more.isEmpty then [' '] else g.more
  | some c => c :: g.more

end Gap

/-- The blanks and breaks from here on. A tab is refused where the line must first be indented up
    to `indent`. `broken` says whether a line has been broken already. -/
def scanGap (indent : Nat) : Nat → Bool → Gap → Cursor → Option (Bool × Gap × Cursor)
  | 0, broken, g, c => some (broken, g, c)
  | fuel + 1, broken, g, c =>
    match c.peek? with
    | some ch =>
      if isBlank ch then
        if broken then
          if ch == '\t' && c.column < indent then none
          else scanGap indent fuel true g c.advance
        else scanGap indent fuel false { g with blanks := g.blanks ++ [ch] } c.advance
      else if isBreak ch then
        let g : Gap :=
          if broken then { g with more := g.more ++ [breakText ch] }
          else ⟨[], some (breakText ch), g.more⟩
        scanGap indent fuel true g c.newLine
      else some (broken, g, c)
    | Option.none => some (broken, g, c)

/-- The characters that end a plain scalar inside a flow collection. -/
def isFlowIndicator (c : Char) : Bool :=
  c == ',' || c == '[' || c == ']' || c == '\x7b' || c == '\x7d'

/-- The characters of a plain scalar up to a gap or an indicator; refused if a `:` in a flow
    collection stands right before an indicator. -/
def plainRun (flow : Bool) : Nat → List Char → Cursor → Option (List Char × Cursor)
  | 0, acc, c => some (acc.reverse, c)
  | fuel + 1, acc, c =>
    match c.peek? with
    | Option.none => some (acc.reverse, c)
    | some ch =>
      if isBlank ch || isBreak ch then some (acc.reverse, c)
      else if flow && ch == ':' &&
          ((c.peekAt? 1).map fun d => isFlowIndicator d || d == '?').getD false then none
      else if (ch == ':' && c.gapAt 1) || (flow && isFlowIndicator ch) then
        some (acc.reverse, c)
      else plainRun flow fuel (ch :: acc) c.advance

/-- A plain scalar: its text, where it ends, and whether it ended after a line break. -/
def plainScalar (flow : Bool) (indent : Nat) :
    Nat → List Char → Gap → Bool → Cursor → Option (List Char × Cursor × Bool)
  | 0, text, _, broken, c => some (text, c, broken)
  | fuel + 1, text, gap, broken, c =>
    if c.atAnyMarker || c.peek? == some '#' then some (text, c, broken)
    else do
      let (run, after) ← plainRun flow (c.rest.length + 1) [] c
      let (text, broken) := if run.isEmpty then (text, broken) else (text ++ gap.fold ++ run, false)
      let gap := if run.isEmpty then gap else Gap.none
      if after.gapAt 0 && after.peek?.isSome then
        let (broken, gap, next) ← scanGap indent (after.rest.length + 1) broken gap after
        if !flow && next.column < indent then some (text, next, broken)
        else plainScalar flow indent fuel text gap broken next
      else some (text, after, broken)

/-- The character of a double-quoted escape of one letter. -/
def escape? (c : Char) : Option Char :=
  match c with
  | '0' => some (Char.ofNat 0)
  | 'a' => some (Char.ofNat 7)
  | 'b' => some (Char.ofNat 8)
  | 't' => some '\t'
  | '\t' => some '\t'
  | 'n' => some '\n'
  | 'v' => some (Char.ofNat 11)
  | 'f' => some (Char.ofNat 12)
  | 'r' => some '\r'
  | 'e' => some (Char.ofNat 27)
  | ' ' => some ' '
  | '"' => some '"'
  | '/' => some '/'
  | '\\' => some '\\'
  | 'N' => some (Char.ofNat 0x85)
  | '_' => some (Char.ofNat 0xA0)
  | 'L' => some (Char.ofNat 0x2028)
  | 'P' => some (Char.ofNat 0x2029)
  | _ => none

/-- The number of hexadecimal digits after an escape letter. -/
def escapeDigits? (c : Char) : Option Nat :=
  match c with
  | 'x' => some 2
  | 'u' => some 4
  | 'U' => some 8
  | _ => none

/-- The character of a code point; a surrogate is none. -/
def scalarValue? (n : Nat) : Option Char :=
  if (0xD800 ≤ n && n ≤ 0xDFFF) || 0x10FFFF < n then none else some (Char.ofNat n)

/-- The characters of a quoted scalar up to a gap or its end. The flag says that a backslash took
    the line break away with which the run ends. -/
def quotedRun (single : Bool) : Nat → List Char → Cursor → Option (List Char × Cursor × Bool)
  | 0, acc, c => some (acc.reverse, c, false)
  | fuel + 1, acc, c =>
    match c.rest with
    | [] => some (acc.reverse, c, false)
    | '\'' :: '\'' :: _ =>
      if single then quotedRun single fuel ('\'' :: acc) (c.advanceBy 2)
      else quotedRun single fuel ('\'' :: acc) c.advance
    | '\\' :: d :: more =>
      if single then quotedRun single fuel ('\\' :: acc) c.advance
      else if isBreak d then some (acc.reverse, c.advance.newLine, true)
      else
        match escapeDigits? d with
        | some n => do
          let digits := more.take n
          if digits.length = n then
            let code ← Text.natInBase? 16 digits
            let ch ← scalarValue? code
            quotedRun single fuel (ch :: acc) (c.advanceBy (2 + n))
          else none
        | none => do
          let ch ← escape? d
          quotedRun single fuel (ch :: acc) (c.advanceBy 2)
    | ch :: _ =>
      if isBlank ch || isBreak ch || ch == (if single then '\'' else '"') then
        some (acc.reverse, c, false)
      else if !single && ch == '\\' then none
      else quotedRun single fuel (ch :: acc) c.advance

/-- A quoted scalar after its opening quote. -/
def quotedScalar (single : Bool) : Nat → List Char → Cursor → Option (List Char × Cursor)
  | 0, _, _ => none
  | fuel + 1, text, c =>
    if c.atAnyMarker then none
    else do
      let (run, after, joined) ← quotedRun single (c.rest.length + 1) [] c
      let text := text ++ run
      match after.peek? with
      | none => none
      | some ch =>
        if ch == (if single then '\'' else '"') && !joined then some (text, after.advance)
        else if ch == (if single then '\'' else '"') then some (text, after.advance)
        else
          let (_, gap, next) ← scanGap 0 (after.rest.length + 1) joined Gap.none after
          quotedScalar single fuel (text ++ gap.fold) next

/-! ## The scanner -/

/-- Where a key may turn out to have begun. A required one stands where the indentation leaves no
    other reading. -/
structure PossibleKey where
  required : Bool
  tokenNumber : Nat
  index : Nat
  line : Nat
  column : Nat

/-- The state between two tokens: the tokens so far, last first, the indentation of the block
    collections that are open, innermost first, whether a key may begin here, and for each flow
    collection and the block around them the key that may have begun there. -/
structure Scanner where
  cursor : Cursor
  tokens : List Token
  indents : List Int
  keyAllowed : Bool
  keys : List (Option PossibleKey)

namespace Scanner

def start (cs : List Char) : Scanner := ⟨.start cs, [], [], true, [none]⟩

/-- Whether a flow collection is open. -/
def inFlow (s : Scanner) : Bool := 1 < s.keys.length

/-- The indentation of the innermost block collection. -/
def indent (s : Scanner) : Int := s.indents.head?.getD (-1)

def push (t : Token) (s : Scanner) : Scanner := { s with tokens := t :: s.tokens }

/-- The token put where `number` tokens precede it. -/
def insertAt (number : Nat) (t : Token) (s : Scanner) : Scanner :=
  let later := s.tokens.length - number
  { s with tokens := s.tokens.take later ++ t :: s.tokens.drop later }

/-- The key that may have begun is given up; refused if it was required. -/
def dropKey (s : Scanner) : Option Scanner :=
  match s.keys with
  | some k :: rest => if k.required then none else some { s with keys := none :: rest }
  | _ => some s

/-- A key may begin here. -/
def saveKey (s : Scanner) : Option Scanner :=
  if s.keyAllowed then do
    let s ← s.dropKey
    let k : PossibleKey :=
      ⟨!s.inFlow && s.indent == s.cursor.column, s.tokens.length, s.cursor.index, s.cursor.line,
        s.cursor.column⟩
    return { s with keys := some k :: s.keys.tail }
  else some s

/-- Keys that began on an earlier line or too far back are given up. -/
def dropStale (s : Scanner) : Option Scanner := do
  let keys ← s.keys.mapM fun k =>
    match k with
    | none => some none
    | some k =>
      if k.line < s.cursor.line || k.index + 1024 < s.cursor.index then
        if k.required then none else some none
      else some (some k)
  return { s with keys }

/-- A block collection begins at a column if it is indented more than the one around it; its
    token goes where `number` tokens precede it, or to the end. -/
def indentTo (column : Nat) (number : Option Nat) (t : Token) (s : Scanner) : Scanner :=
  if s.inFlow || (column : Int) ≤ s.indent then s
  else
    let s := { s with indents := (column : Int) :: s.indents }
    match number with
    | some n => s.insertAt n t
    | none => s.push t

/-- The block collections indented more than `column` end. -/
def endBlocks (column : Int) (s : Scanner) : Scanner :=
  if s.inFlow then s
  else
    let ended := (s.indents.takeWhile fun i => column < i).length
    { s with indents := s.indents.drop ended, tokens := List.replicate ended .blockEnd ++ s.tokens }

/-- Past blanks, comments and line breaks. A tab is no indentation, so outside flow collections it
    is skipped only where no key may begin. -/
def skipToToken : Nat → Scanner → Scanner
  | 0, s => s
  | fuel + 1, s =>
    match s.cursor.peek? with
    | none => s
    | some c =>
      if isMark c && s.cursor.index == 0 then
        skipToToken fuel { s with cursor := s.cursor.advance }
      else if c == ' ' || (c == '\t' && (s.inFlow || !s.keyAllowed)) then
        skipToToken fuel { s with cursor := s.cursor.advance }
      else if c == '#' then
        let comment := (s.cursor.rest.takeWhile fun c => !isBreak c).length
        skipToToken fuel { s with cursor := s.cursor.advanceBy comment }
      else if isBreak c then
        skipToToken fuel
          { s with cursor := s.cursor.newLine, keyAllowed := s.keyAllowed || !s.inFlow }
      else s

/-- A document marker. -/
def marker (t : Token) (s : Scanner) : Option Scanner := do
  let s ← (s.endBlocks (-1)).dropKey
  return ({ s with keyAllowed := false, cursor := s.cursor.advanceBy 3 } : Scanner).push t

def flowStart (t : Token) (s : Scanner) : Option Scanner := do
  let s ← s.saveKey
  return ({ s with keys := none :: s.keys, keyAllowed := true, cursor := s.cursor.advance } :
    Scanner).push t

def flowEnd (t : Token) (s : Scanner) : Option Scanner := do
  let s ← s.dropKey
  let keys := if s.inFlow then s.keys.tail else s.keys
  return ({ s with keys, keyAllowed := false, cursor := s.cursor.advance } : Scanner).push t

def flowEntry (s : Scanner) : Option Scanner := do
  let s ← s.dropKey
  return ({ s with keyAllowed := true, cursor := s.cursor.advance } : Scanner).push .flowEntry

def blockEntry (s : Scanner) : Option Scanner :=
  if !s.inFlow && !s.keyAllowed then none
  else do
    let s ← (s.indentTo s.cursor.column none .blockSequence).dropKey
    return ({ s with keyAllowed := true, cursor := s.cursor.advance } : Scanner).push .blockEntry

/-- A key announced by `?`. -/
def explicitKey (s : Scanner) : Option Scanner :=
  if !s.inFlow && !s.keyAllowed then none
  else do
    let s ← (s.indentTo s.cursor.column none .blockMapping).dropKey
    return ({ s with keyAllowed := !s.inFlow, cursor := s.cursor.advance } : Scanner).push .key

/-- The `:` before a value. What may have been a key now is one. -/
def value (s : Scanner) : Option Scanner :=
  match s.keys with
  | some k :: rest =>
    let s := (s.insertAt k.tokenNumber .key).indentTo k.column (some k.tokenNumber) .blockMapping
    some (({ s with keys := none :: rest, keyAllowed := false, cursor := s.cursor.advance } :
      Scanner).push .value)
  | _ =>
    if !s.inFlow && !s.keyAllowed then none
    else
      let s := s.indentTo s.cursor.column none .blockMapping
      some (({ s with keyAllowed := !s.inFlow, cursor := s.cursor.advance } : Scanner).push .value)

def quoted (single : Bool) (s : Scanner) : Option Scanner := do
  let s ← s.saveKey
  let (text, c) ← quotedScalar single (s.cursor.rest.length + 1) [] s.cursor.advance
  return ({ s with keyAllowed := false, cursor := c } : Scanner).push
    (.scalar false (String.ofList text))

def plain (s : Scanner) : Option Scanner := do
  let s ← s.saveKey
  let (text, c, broken) ←
    plainScalar s.inFlow (s.indent + 1).toNat (s.cursor.rest.length + 1) [] Gap.none false s.cursor
  return ({ s with keyAllowed := broken, cursor := c } : Scanner).push
    (.scalar true (String.ofList text))

/-- The characters that a plain scalar cannot begin with. -/
def isIndicator (c : Char) : Bool :=
  "-?:,[]\x7b\x7d#&*!|>'\"%@`".toList.contains c

/-- The next token; none if no token can begin here. -/
def next (s : Scanner) (c : Char) : Option Scanner :=
  let cur := s.cursor
  if cur.column == 0 && c == '%' then none
  else if cur.atMarker '-' then s.marker .documentStart
  else if cur.atMarker '.' then s.marker .documentEnd
  else if c == '[' then s.flowStart .flowSequenceStart
  else if c == '\x7b' then s.flowStart .flowMappingStart
  else if c == ']' then s.flowEnd .flowSequenceEnd
  else if c == '\x7d' then s.flowEnd .flowMappingEnd
  else if c == ',' then s.flowEntry
  else if c == '-' && cur.gapAt 1 then s.blockEntry
  else if c == '?' && (s.inFlow || cur.gapAt 1) then s.explicitKey
  else if c == ':' && (s.inFlow || cur.gapAt 1) then s.value
  else if c == '\'' then s.quoted true
  else if c == '"' then s.quoted false
  else if !(isBlank c || isIndicator c) || c == '-' || (!s.inFlow && (c == '?' || c == ':')) then
    s.plain
  else none

/-- The tokens up to the end of the text; each takes at least one character. -/
def run : Nat → Scanner → Option (List Token)
  | 0, _ => none
  | fuel + 1, s => do
    let s := s.skipToToken (s.cursor.rest.length + 1)
    let s ← s.dropStale
    let s := s.endBlocks s.cursor.column
    match s.cursor.peek? with
    | none =>
      let s ← (s.endBlocks (-1)).dropKey
      return s.tokens.reverse
    | some c =>
      let s ← s.next c
      run fuel s

end Scanner

/-- The tokens of a text. -/
def tokens (cs : List Char) : Option (List Token) :=
  (Scanner.start cs).run (cs.length + 1)

end AuthGate.Yaml
