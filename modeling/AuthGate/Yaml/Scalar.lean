import AuthGate.Json.Basic
import AuthGate.Text.Blank
import AuthGate.Yaml.Node

set_option autoImplicit false

/-! # Plain scalars

What a scalar without quotes stands for: nothing, a truth value, a number or its own text. Whole
numbers may be written in four bases; a number with a leading zero is text. -/

namespace AuthGate.Yaml

/-- What a plain scalar stands for. -/
inductive Plain where
  | null
  | bool (b : Bool)
  /-- A whole number that 64 bits hold, signed if negative. -/
  | whole (i : Int)
  /-- A whole number that only 128 bits hold. -/
  | large
  | float (d : Double)
  /-- Infinite or not a number. -/
  | notFinite
  | text
  deriving DecidableEq

namespace Plain

def isNull (cs : List Char) : Bool :=
  ["", "null", "Null", "NULL", "~"].contains (String.ofList cs)

/-- The three spellings of each truth value. -/
def bool? (cs : List Char) : Option Bool :=
  let s := String.ofList cs
  if ["true", "True", "TRUE"].contains s then some true
  else if ["false", "False", "FALSE"].contains s then some false
  else none

/-- Digits that begin with a zero and are more than one, after an optional sign. -/
def hasLeadingZero (cs : List Char) : Bool :=
  let ds :=
    match cs with
    | '-' :: ds => ds
    | '+' :: ds => ds
    | ds => ds
  match ds with
  | '0' :: d :: ds => (d :: ds).all Text.isDigit
  | _ => false

/-- A whole number in the base that its first characters name, with `sign` before them. -/
def based? (sign : List Char) (cs : List Char) : Option Nat :=
  let digits (letter : Char) (base : Nat) : Option Nat :=
    (Text.dropStart? (sign ++ ['0', letter]) cs).bind (Text.natInBase? base)
  (digits 'x' 16).or ((digits 'o' 8).or (digits 'b' 2))

/-- A whole number without a minus, an optional plus before it. -/
def unsigned? (cs : List Char) : Option Nat :=
  let size :=
    match cs with
    | '+' :: ds => ds
    | ds => ds
  (based? [] size).or (if hasLeadingZero cs then none else Text.natInBase? 10 size)

/-- The size of a whole number with a minus. -/
def negative? (cs : List Char) : Option Nat :=
  (based? ['-'] cs).or
    (match cs with
    | '-' :: ds => if hasLeadingZero cs then none else Text.natInBase? 10 ds
    | _ => none)

/-- A decimal with an optional point and an optional exponent; there is a digit beside the
    point. -/
def decimal? (negative : Bool) (cs : List Char) : Option Double :=
  let whole := cs.takeWhile Text.isDigit
  let rest := cs.dropWhile Text.isDigit
  let (fraction, rest) :=
    match rest with
    | '.' :: rest => (rest.takeWhile Text.isDigit, rest.dropWhile Text.isDigit)
    | rest => ([], rest)
  match Text.natInBase? 10 (whole ++ fraction) with
  | none => none
  | some digits =>
    let result (e : Int) : Option Double :=
      let e := e - fraction.length
      -- Beyond these exponents the result is zero or infinite whatever the digits are.
      let span : Int := 400 + (whole.length + fraction.length : Nat)
      some (if digits = 0 || e < -span then .zero negative
        else if span < e then .infinity negative
        else .ofDecimal negative digits e)
    match rest with
    | [] => result 0
    | c :: rest =>
      if c == 'e' || c == 'E' then (Text.signedInBase? 10 rest).bind result else none

/-- A decimal with an optional sign. -/
def float? (cs : List Char) : Option Double :=
  match cs with
  | '-' :: ds => decimal? true ds
  | '+' :: ds => decimal? false ds
  | ds => decimal? false ds

/-- The spellings of what is infinite or not a number. -/
def isNotFinite (cs : List Char) : Bool :=
  [".inf", ".Inf", ".INF", "+.inf", "+.Inf", "+.INF", "-.inf", "-.Inf", "-.INF",
    ".nan", ".NaN", ".NAN"].contains (String.ofList cs)

/-- What a plain scalar stands for. A decimal that no double holds stays text. -/
def ofText (cs : List Char) : Plain :=
  if isNull cs then .null
  else match bool? cs with
  | some b => .bool b
  | none =>
    match unsigned? cs, negative? cs with
    | some n, _ =>
      if n < 0x10000000000000000 then .whole n
      else if n < 0x100000000000000000000000000000000 then .large
      else ofFloat cs
    | none, some n =>
      if n ≤ 0x8000000000000000 then .whole (-(n : Int))
      else if n ≤ 0x80000000000000000000000000000000 then .large
      else ofFloat cs
    | none, none => ofFloat cs
where
  /-- What a plain scalar stands for that is no whole number in range. -/
  ofFloat (cs : List Char) : Plain :=
    if hasLeadingZero cs then .text
    else if isNotFinite cs then .notFinite
    else match float? cs with
    | some d => if d.isFinite then .float d else .text
    | none => .text

end Plain

/-! ## Documents as JSON -/

namespace Node

/-- How deep collections of a data document may be nested. -/
def maxDepth : Nat := 128

/-- A scalar as JSON; none if it is a number beyond 64 bits. -/
def scalarJson? (plain : Bool) (text : String) : Option Json :=
  if plain then
    match Plain.ofText text.toList with
    | .null => some .null
    | .bool b => some (.bool b)
    | .whole i => some (.ofInt i)
    | .large => none
    | .float d => some (.ofDouble d)
    | .notFinite => some .null
    | .text => some (.string text)
  else some (.string text)

/-- A node as JSON. The text of a scalar is the name of a field, and a collection can name none; of
    two fields of one name the later stays. -/
def json? : Nat → Node → Option Json
  | _, .scalar plain text => scalarJson? plain text
  | 0, _ => none
  | depth + 1, .sequence items => do
    let items ← items.mapM (json? depth)
    return .array items
  | depth + 1, .mapping entries => do
    let fields ← entries.mapM fun (key, value) =>
      match key with
      | .scalar _ name => (json? depth value).map fun v => (name, v)
      | _ => none
    return .ofFields fields

end Node

/-- The data document of a text; a text without a document is null. -/
def data? (bs : List UInt8) : Option Json := do
  match ← document? bs with
  | none => return .null
  | some node => node.json? Node.maxDepth

end AuthGate.Yaml
