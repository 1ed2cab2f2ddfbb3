import AuthGate.Json.Printer

set_option autoImplicit false

/-! # Log events

The program's log is a list of events, each of a level, for a target, with a message and further
fields. -/

namespace AuthGate

/-- How grave a log event is. -/
inductive Level where
  | error
  | warn
  | info
  | debug
  | trace
  deriving DecidableEq, Repr

/-- The name of a level. -/
def Level.name : Level → String
  | .error => "ERROR"
  | .warn => "WARN"
  | .info => "INFO"
  | .debug => "DEBUG"
  | .trace => "TRACE"

/-- The place of a level, the gravest first. -/
def Level.rank : Level → Nat
  | .error => 1
  | .warn => 2
  | .info => 3
  | .debug => 4
  | .trace => 5

/-- An event of the program's log. -/
structure LogEvent where
  level : Level
  target : String
  message : String
  fields : List (String × Json)

/-- An event as a document. -/
def LogEvent.toJson (e : LogEvent) : Json :=
  .ofFields [("level", .string e.level.name), ("target", .string e.target),
    ("fields", .ofFields (("message", .string e.message) :: e.fields))]

end AuthGate
