import AuthGate.Engine.Interpreter
import AuthGate.Rego.Parser
import AuthGate.Rego.Program

set_option autoImplicit false

/-! # Sessions

The interpreter of the policy language: modules are read as they are added, and what is wrong with
the program that they make is found when a value is asked for. -/

namespace AuthGate.Rego

/-- A session: a program, and what it is evaluated on. -/
structure Session where
  program : Program := ⟨[]⟩
  data : List (String × Json) := []
  input : Json := .object []

namespace Session

/-- The session with one module more. -/
def addModule (source : String) (s : Session) : Except String Session :=
  match Module.ofText? source with
  | some m => .ok { s with program := ⟨s.program.modules ++ [m]⟩ }
  | none => .error "the module cannot be read"

/-- The session with more data. -/
def addData (data : Json) (s : Session) : Except String Session :=
  match data with
  | .object fields =>
    .ok { s with data := fields.foldl (fun data (k, v) => Fields.insert k v data) s.data }
  | _ => .error Fault.dataNotObject.message

/-- The value of an entry point, if it is defined. -/
def value (e : EntryPoint) (s : Session) : Except String (Option Json) :=
  (s.program.query e s.input (.object s.data)).mapError (·.message)

end Session

/-- The interpreter of the policy language. -/
def interpreter : Interpreter Session where
  fresh := {}
  addModule _ := Session.addModule
  addData := Session.addData
  setInput input s := { s with input }
  query e s := (s.value e, s)

end AuthGate.Rego
