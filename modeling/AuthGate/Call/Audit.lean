import AuthGate.Instant
import AuthGate.Log.Event

set_option autoImplicit false

/-! # The audit log

Every call that has opened a transaction leaves one entry: what was asked, what was decided and what
went wrong. The text of an entry is a JSON object whose fields stand in a fixed order; those that
are not there are left out. -/

namespace AuthGate

/-- An entry of the audit log. -/
structure AuditEntry where
  decisionId : String
  timestamp : Instant
  /-- The path of the entry point, if it was configured so. -/
  path : Option String
  /-- The query of the entry point, if it was configured so. -/
  query : Option String
  /-- The policy input, if it could be built. -/
  input : Option Json
  /-- The decision as the policy made it, if it did. -/
  result : Option Json
  /-- The text of what went wrong. -/
  error : Option String
  transaction : Option Nat
  /-- Nanoseconds by timer. -/
  metrics : List (String × Nat)
  /-- Results of builtins that may differ from call to call, if they were recorded. -/
  builtinResults : Option Json

namespace AuditEntry

/-- A field that is left out if there is no value. -/
def field {α : Type} (name : String) (f : α → Json) : Option α → List (String × Json)
  | none => []
  | some a => [(name, f a)]

/-- The fields of an entry in their order. -/
def fields (e : AuditEntry) : List (String × Json) :=
  [("decision_id", .string e.decisionId), ("timestamp", .string e.timestamp.render)] ++
    field "path" .string e.path ++ field "query" .string e.query ++ field "input" id e.input ++
    field "result" id e.result ++ field "error" .string e.error ++
    field "txn_id" .ofNat e.transaction ++
    [("metrics", .ofFields (Fields.mapValues .ofNat e.metrics))] ++
    field "nd_builtin_cache" id e.builtinResults

/-- The text of an entry. -/
def render (e : AuditEntry) : String :=
  String.ofList ('\x7b' :: (Json.fieldChars e.fields ++ ['\x7d']))

end AuditEntry

/-- The target under which audit entries are logged. -/
def auditTarget : String := "decision_log"

/-- The event that an audit entry is logged as. -/
def AuditEntry.event (e : AuditEntry) : LogEvent :=
  ⟨.info, auditTarget, "Decision Log",
    [("decision_id", .string e.decisionId), ("entry", .string e.render)]⟩

end AuthGate
