import AuthGate.Decimal.Double
import AuthGate.Fields
import AuthGate.Text.Digits

set_option autoImplicit false

/-! # JSON documents

The one dynamic value of the library: policy inputs, data documents and decisions are JSON. A
number is a whole number that 64 bits hold, signed or unsigned, or else a double; `1` and `1.0`
are different documents. The fields of an object are sorted by name (`Fields.ofList`). -/

namespace AuthGate

/-- A whole number within the signed or the unsigned 64-bit range. -/
structure Whole where
  value : Int
  in_range : -(0x8000000000000000) ≤ value ∧ value < 0x10000000000000000
  deriving DecidableEq

/-- A JSON number. -/
inductive Number where
  | whole (w : Whole)
  | double (d : Double)
  deriving DecidableEq

/-- A JSON document. -/
inductive Json where
  | null
  | bool (b : Bool)
  | number (n : Number)
  | string (s : String)
  | array (items : List Json)
  | object (fields : List (String × Json))
  deriving Inhabited

namespace Whole

/-- The number, if it is in range. -/
def ofInt? (i : Int) : Option Whole :=
  if h : -(0x8000000000000000) ≤ i ∧ i < 0x10000000000000000 then some ⟨i, h⟩ else none

end Whole

namespace Number

/-- A whole number as JSON: a double if 64 bits do not hold it. -/
def ofInt (i : Int) : Number :=
  match Whole.ofInt? i with
  | some w => .whole w
  | none => .double (Double.ofInt i)

/-- A finite double as a JSON number. -/
def ofDouble? (d : Double) : Option Number := if d.isFinite then some (.double d) else none

/-- The double nearest the number. -/
def toDouble : Number → Double
  | .whole w => Double.ofInt w.value
  | .double d => d

/-- The whole number that the number equals exactly, if it is one. -/
def toInt? : Number → Option Int
  | .whole w => some w.value
  | .double d => d.toInt?

end Number

namespace Json

/-- A whole number as a document. -/
def ofInt (i : Int) : Json := .number (.ofInt i)

def ofNat (n : Nat) : Json := ofInt n

/-- A document with these fields. -/
def ofFields (entries : List (String × Json)) : Json := .object (Fields.ofList entries)

/-- A list of texts as a document. -/
def ofStrings (ss : List String) : Json := .array (ss.map .string)

/-- A map from names to texts as a document. -/
def ofTexts (entries : List (String × String)) : Json :=
  ofFields (Fields.mapValues .string entries)

/-- A finite double as a document, and null for any other. -/
def ofDouble (d : Double) : Json :=
  match Number.ofDouble? d with
  | some n => .number n
  | none => .null

def asString? : Json → Option String
  | .string s => some s
  | _ => none

def asBool? : Json → Option Bool
  | .bool b => some b
  | _ => none

def asArray? : Json → Option (List Json)
  | .array items => some items
  | _ => none

def asObject? : Json → Option (List (String × Json))
  | .object fields => some fields
  | _ => none

/-- The field of an object. -/
def field? (name : String) : Json → Option Json
  | .object fields => Fields.get? name fields
  | _ => none

end Json

end AuthGate
