import AuthGate.Json.Basic

set_option autoImplicit false

/-! # Values in policies

A policy does not tell a whole number from a double that equals it: `1` and `1.0` are one value, and
so are `0` and `-0.0`. Documents are brought into that form before a policy sees them; then equal
values are equal documents. -/

namespace AuthGate.Rego

/-- A number in its one form: whole if it can be. -/
def plainNumber (n : Number) : Number :=
  match n.toInt?.bind Whole.ofInt? with
  | some w => .whole w
  | none => n

mutual

/-- A document in the form that policies work on. -/
def plain : Json → Json
  | .number n => .number (plainNumber n)
  | .array items => .array (plainItems items)
  | .object fields => .object (plainFields fields)
  | v => v

def plainItems : List Json → List Json
  | [] => []
  | v :: vs => plain v :: plainItems vs

def plainFields : List (String × Json) → List (String × Json)
  | [] => []
  | (k, v) :: rest => (k, plain v) :: plainFields rest

end

mutual

/-- Whether two documents are equal. -/
def same : Json → Json → Bool
  | .null, .null => true
  | .bool a, .bool b => a == b
  | .number a, .number b => a == b
  | .string a, .string b => a == b
  | .array as, .array bs => sameItems as bs
  | .object as, .object bs => sameFields as bs
  | _, _ => false

def sameItems : List Json → List Json → Bool
  | [], [] => true
  | a :: as, b :: bs => same a b && sameItems as bs
  | _, _ => false

def sameFields : List (String × Json) → List (String × Json) → Bool
  | [], [] => true
  | (j, a) :: as, (k, b) :: bs => j == k && same a b && sameFields as bs
  | _, _ => false

end

/-- What stands in a document at a step: a field by name, or an item by number. -/
def index (v step : Json) : Option Json :=
  match v, step with
  | .object fields, .string key => Fields.get? key fields
  | .array items, .number n =>
    match n.toInt? with
    | some i => if 0 ≤ i then items[i.toNat]? else none
    | none => none
  | _, _ => none

/-- What stands in a document along a path of names. -/
def follow : Json → List String → Option Json
  | v, [] => some v
  | v, key :: path => (v.field? key).bind (follow · path)

/-- Whether a value is in a collection: as an item of an array or as the value of a field. -/
def isIn (v : Json) : Json → Bool
  | .array items => items.any (same v)
  | .object fields => fields.any fun (_, w) => same v w
  | _ => false

end AuthGate.Rego
