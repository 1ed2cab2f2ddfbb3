import AuthGate.Failure
import AuthGate.Json.Printer

set_option autoImplicit false

/-! # Decisions

What a policy decides: a bare truth value, an object that says whether the request may pass and what
goes with it, or anything else, which does not let the request pass. -/

namespace AuthGate

/-- A decision. -/
inductive Decision where
  | scalar (allowed : Bool)
  | structured (fields : List (String × Json))
  | other (value : Json)

namespace Decision

/-- The decision that a document is. -/
def ofJson : Json → Decision
  | .bool b => .scalar b
  | .object fields => .structured fields
  | v => .other v

/-- The field that says whether the request may pass. -/
def allowedKey : String := "allowed"

/-- The name that the field may have instead. -/
def allowAlias : String := "allow"

/-- A failure to make a response of a decision. -/
def malformed (cause : String) : Failure := ⟨.responseShaping, cause⟩

/-- Whether the request may pass. -/
def isAllowed : Decision → Except Failure Bool
  | .scalar allowed => .ok allowed
  | .structured fields =>
    match (Fields.get? allowedKey fields).or (Fields.get? allowAlias fields) with
    | none =>
      .error (malformed
        s!"unable to determine evaluation result due to missing \"{allowedKey}\" key")
    | some (.bool b) => .ok b
    | some v => .error (malformed s!"expected boolean \"{allowedKey}\" value, got {v.render}")
  | .other _ => .ok false

end Decision

end AuthGate
