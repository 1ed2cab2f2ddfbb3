import AuthGate.Failure
import AuthGate.Json.Parser
import AuthGate.Json.Printer
import AuthGate.Rego.Value

set_option autoImplicit false

/-! # Values of the engine

The engine takes its input as text and reads it on its own, and gives its decision back as text.
What is nested too deep for that cannot be converted. -/

namespace AuthGate.Engine

mutual

/-- How deep arrays and objects are nested in a document. -/
def depth : Json → Nat
  | .array items => itemsDepth items + 1
  | .object fields => fieldsDepth fields + 1
  | _ => 0

/-- The depth of the deepest item. -/
def itemsDepth : List Json → Nat
  | [] => 0
  | v :: vs => max (depth v) (itemsDepth vs)

/-- The depth of the deepest field. -/
def fieldsDepth : List (String × Json) → Nat
  | [] => 0
  | (_, v) :: rest => max (depth v) (fieldsDepth rest)

end

/-- A document as text that is read on the other side, where it may not be nested too deep. -/
def carry (f : Failure) (v : Json) : Except Failure Json :=
  if depth v ≤ Json.maxDepth then .ok v else .error f

/-- The policy input as a value of the engine. -/
def convert (input : Json) : Except Failure Json :=
  (carry ⟨.valueConversion, "the input is nested too deep"⟩ input).map Rego.plain

/-- The data as a value of the engine. -/
def toValue (data : Json) : Except Failure Json :=
  (carry ⟨.evaluation, "the data is nested too deep"⟩ data).map Rego.plain

/-- A value of the engine as a document. -/
def ofValue (v : Json) : Except Failure Json :=
  carry ⟨.evaluation, "the decision is nested too deep"⟩ v

end AuthGate.Engine
