import AuthGate.EntryPoint.Basic
import AuthGate.Json.Basic

set_option autoImplicit false

/-! # Interpreters

What evaluates policies. A session of an interpreter is given modules, data and an input, and is then
asked for the value of an entry point. A session may change whenever it is used; a copy of it shares
nothing with it. -/

namespace AuthGate

/-- An interpreter whose sessions have states of type `ε`. What it refuses it answers with a text. -/
structure Interpreter (ε : Type) where
  /-- A session without modules, data or input. -/
  fresh : ε
  /-- A session with one module more. -/
  addModule (id source : String) : ε → Except String ε
  /-- A session with more data. -/
  addData (data : Json) : ε → Except String ε
  /-- A session with another input. -/
  setInput (input : Json) : ε → ε
  /-- The value of an entry point, if it is defined, and the session after it was asked for. -/
  query (e : EntryPoint) : ε → Except String (Option Json) × ε

end AuthGate
