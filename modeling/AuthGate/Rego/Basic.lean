import AuthGate.Json.Basic

set_option autoImplicit false

/-! # Rego

The part of the policy language Rego that policies are written in here. A module belongs to a
package and gives names to values: by rules, each of which holds if its body does, and by defaults
for when no rule holds. A term is a JSON value, possibly with references in it; a reference leads
into the input, into the data, or to a name of the package. -/

namespace AuthGate.Rego

/-- A term. -/
inductive Term where
  | value (v : Json)
  | array (items : List Term)
  | object (fields : List (Term × Term))
  /-- A reference: where it starts, the keys that follow at once, and all further steps. -/
  | ref (root : String) (keys : List String) (steps : List Term)
  deriving Inhabited

/-- A statement in a body that needs no negation. -/
inductive Assertion where
  | holds (t : Term)
  | equal (a b : Term)
  | differ (a b : Term)
  | member (a b : Term)

/-- A statement in a body. -/
structure Condition where
  negated : Bool
  assertion : Assertion

/-- A rule. -/
structure Rule where
  name : String
  value : Term
  body : List Condition

/-- A module. -/
structure Module where
  package : List String
  rules : List Rule
  defaults : List (String × Term)

/-- What stands for the input. -/
def inputRoot : String := "input"

/-- What stands for the data. -/
def dataRoot : String := "data"

/-- Words that are no names. -/
def keywords : List String :=
  ["as", "default", "else", "false", "import", "not", "null", "package", "some", "true", "with"]

/-- Words that are no names either in modules that ask for the current language. -/
def currentKeywords : List String := ["contains", "every", "if", "in"]

end AuthGate.Rego
