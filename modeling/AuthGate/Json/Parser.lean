import AuthGate.Json.Basic
import AuthGate.Json.Literal
import AuthGate.Text.Utf8

set_option autoImplicit false

/-! # Reading JSON text

A reader takes characters and gives what it read and the rest, or nothing if the text is no JSON.
Arrays and objects may be nested up to `maxDepth` deep, and that depth is what the recursion goes
down on; a literal that no double can hold is refused. -/

namespace AuthGate.Json

/-- How deep arrays and objects may be nested. -/
def maxDepth : Nat := 127

/-- The four characters that may stand between tokens. -/
def isSpace (c : Char) : Bool := c = ' ' || c = '\n' || c = '\t' || c = '\r'

def skipSpace (cs : List Char) : List Char := cs.dropWhile isSpace

/-! ## Numbers

The digits of a number make a whole number as long as 64 bits hold it. Of further digits those
before the point only count towards the exponent, and those after it count for nothing. -/

/-- The digits read so far: a whole number and the power of ten it is multiplied with. -/
structure Scan where
  digits : Nat
  exponent : Int

/-- One digit more, if 64 bits hold the result. -/
def Scan.push? (s : Scan) (c : Char) : Option Nat :=
  let n := s.digits * 10 + (c.toNat - '0'.toNat)
  if n < 0x10000000000000000 then some n else none

/-- Digits before the point, none of them lost yet: the scan, whether all digits were kept, and
    the rest. -/
def integerDigits (s : Scan) : List Char → Scan × Bool × List Char
  | [] => (s, true, [])
  | c :: cs =>
    if Text.isDigit c then
      match s.push? c with
      | some n => integerDigits { s with digits := n } cs
      | none =>
        let lost := (c :: cs).takeWhile Text.isDigit
        ({ s with exponent := s.exponent + lost.length }, false, (c :: cs).dropWhile Text.isDigit)
    else (s, true, c :: cs)

/-- Digits after the point; the first that does not fit and all after it count for nothing. -/
def fractionDigits (s : Scan) : List Char → Scan × List Char
  | [] => (s, [])
  | c :: cs =>
    if Text.isDigit c then
      match s.push? c with
      | some n => fractionDigits ⟨n, s.exponent - 1⟩ cs
      | none => (s, (c :: cs).dropWhile Text.isDigit)
    else (s, c :: cs)

/-- The double of a scan: the whole number is rounded to a double, and so is the product or
    quotient with a power of ten; beyond `10 ^ 308` the division takes several steps. None if the
    result is infinite. -/
def Scan.toDouble? (s : Scan) : Option Double :=
  let whole := Double.ofInt s.digits
  let power (e : Nat) : Double := Double.ofDecimal false 1 e
  let finite (d : Double) : Option Double := if d.isFinite then some d else none
  if 0 ≤ s.exponent then
    if s.exponent ≤ 308 then finite (whole.mul (power s.exponent.toNat))
    else if s.digits = 0 then some whole else none
  else
    let e := s.exponent.natAbs
    if e ≤ 308 then some (whole.div (power e))
    else if e ≤ 616 then some ((whole.div (power 308)).div (power (e - 308)))
    else some (.zero false)

/-- The exponent of ten after `e`: its value and the rest. -/
def exponent? (cs : List Char) : Option (Int × List Char) :=
  let (negative, cs) :=
    match cs with
    | '+' :: cs => (false, cs)
    | '-' :: cs => (true, cs)
    | cs => (false, cs)
  let ds := cs.takeWhile Text.isDigit
  match Text.natInBase? 10 ds with
  | some n => some (if negative then -(n : Int) else n, cs.dropWhile Text.isDigit)
  | none => none

/-- The exponent beyond which it is not added up any more: what it multiplies is zero or
    infinite. -/
def exponentLimit : Nat := 0x80000000 - 1

/-- A scan after which an exponent may follow, as a double. -/
def withExponent? (s : Scan) : List Char → Option (Double × List Char)
  | c :: cs =>
    if c = 'e' || c = 'E' then do
      let (e, rest) ← exponent? cs
      if exponentLimit < e.natAbs then
        if s.digits ≠ 0 ∧ 0 < e then none else return (.zero false, rest)
      else
        let d ← Scan.toDouble? ⟨s.digits, s.exponent + e⟩
        return (d, rest)
    else do
      let d ← s.toDouble?
      return (d, c :: cs)
  | [] => do
    let d ← s.toDouble?
    return (d, [])

/-- An unsigned number: a whole number of 64 bits or a double. -/
def size? (cs : List Char) : Option ((Nat ⊕ Double) × List Char) :=
  match cs with
  | [] => none
  | c :: rest =>
    if !Text.isDigit c then none
    else
      let (s, kept, after) :=
        if c = '0' then (⟨0, 0⟩, true, rest) else integerDigits ⟨0, 0⟩ cs
      match after with
      | '.' :: after =>
        let (t, end_) := fractionDigits s after
        if (after.head?.map Text.isDigit).getD false then do
          let (d, rest) ← withExponent? t end_
          return (.inr d, rest)
        else none
      | d :: after =>
        if c = '0' && Text.isDigit d then none
        else if d = 'e' || d = 'E' || !kept then do
          let (d, rest) ← withExponent? s (d :: after)
          return (.inr d, rest)
        else some (.inl s.digits, d :: after)
      | [] =>
        if kept then some (.inl s.digits, [])
        else do
          let (d, rest) ← withExponent? s []
          return (.inr d, rest)

/-- A number. A negative one is whole if 64 signed bits hold it and it is not zero. -/
def number? : List Char → Option (Number × List Char)
  | '-' :: cs => do
    let (n, rest) ← size? cs
    match n with
    | .inl n =>
      if n ≠ 0 ∧ n ≤ 0x8000000000000000 then return (.ofInt (-(n : Int)), rest)
      else return (.double (Double.ofInt n).negate, rest)
    | .inr d => return (.double d.negate, rest)
  | cs => do
    let (n, rest) ← size? cs
    match n with
    | .inl n => return (.ofInt n, rest)
    | .inr d => return (.double d, rest)

/-! ## Values -/

/-- A reader of one value. -/
abbrev Reader (α : Type) := List Char → Option (α × List Char)

/-- The items after an opening bracket up to the closing one; `fuel` bounds how many there are. -/
def items (item : Reader Json) : Nat → List Char → Option (List Json × List Char)
  | 0, _ => none
  | fuel + 1, cs => do
    let (v, rest) ← item cs
    match skipSpace rest with
    | ']' :: rest => return ([v], rest)
    | ',' :: rest =>
      let (vs, rest) ← items item fuel rest
      return (v :: vs, rest)
    | _ => none

/-- One field of an object. -/
def field (item : Reader Json) (cs : List Char) : Option ((String × Json) × List Char) := do
  let (k, rest) ← Literal.decode? (skipSpace cs)
  match skipSpace rest with
  | ':' :: rest =>
    let (v, rest) ← item rest
    return ((String.ofList k, v), rest)
  | _ => none

/-- The fields after an opening brace up to the closing one. -/
def members (item : Reader Json) : Nat → List Char → Option (List (String × Json) × List Char)
  | 0, _ => none
  | fuel + 1, cs => do
    let (f, rest) ← field item cs
    match skipSpace rest with
    | '\x7d' :: rest => return ([f], rest)
    | ',' :: rest =>
      let (fs, rest) ← members item fuel rest
      return (f :: fs, rest)
    | _ => none

/-- A value in which arrays and objects are nested at most `depth` deep, blanks before it. -/
def value : Nat → Reader Json
  | depth, cs =>
    match skipSpace cs with
    | 'n' :: 'u' :: 'l' :: 'l' :: rest => some (.null, rest)
    | 't' :: 'r' :: 'u' :: 'e' :: rest => some (.bool true, rest)
    | 'f' :: 'a' :: 'l' :: 's' :: 'e' :: rest => some (.bool false, rest)
    | '"' :: rest => do
      let (s, rest) ← Literal.body? rest
      return (.string (String.ofList s), rest)
    | '[' :: rest =>
      match depth with
      | 0 => none
      | depth + 1 =>
        match skipSpace rest with
        | ']' :: rest => some (.array [], rest)
        | _ => do
          let (vs, rest) ← items (value depth) (rest.length + 1) rest
          return (.array vs, rest)
    | '\x7b' :: rest =>
      match depth with
      | 0 => none
      | depth + 1 =>
        match skipSpace rest with
        | '\x7d' :: rest => some (.object [], rest)
        | _ => do
          let (fs, rest) ← members (value depth) (rest.length + 1) rest
          return (.ofFields fs, rest)
    | cs => do
      let (n, rest) ← number? cs
      return (.number n, rest)

/-- The document that the whole text is, if it is JSON. -/
def ofChars? (cs : List Char) : Option Json := do
  let (v, rest) ← value maxDepth cs
  if (skipSpace rest).isEmpty then return v else none

/-- The document that the bytes are, if they are JSON in UTF-8. -/
def ofBytes? (bs : List UInt8) : Option Json := do
  let cs ← Text.Utf8.decode? bs
  ofChars? cs

/-- The text that a literal, blanks around it allowed, stands for. -/
def literal? (cs : List Char) : Option (List Char) := do
  let (s, rest) ← Literal.decode? (skipSpace cs)
  if (skipSpace rest).isEmpty then return s else none

end AuthGate.Json
