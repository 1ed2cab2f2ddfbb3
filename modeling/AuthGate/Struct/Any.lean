import AuthGate.Proto.Message

set_option autoImplicit false

/-! # Values of named types

A value whose type is told by a URL beside it, so that a message can carry values of types that its
own schema does not have. -/

namespace AuthGate

/-- A value of a type that is named. -/
structure AnyValue where
  typeUrl : String
  value : List UInt8
  deriving DecidableEq, Repr

namespace AnyValue

open Proto

/-- The message that such values travel in. -/
def messageType : MessageType :=
  ⟨"Any", [.single 1 "type_url" .string, .single 2 "value" .bytes]⟩

/-- The message of a value. -/
def toMessage (a : AnyValue) : Message := Message.ofText 1 a.typeUrl ++ Message.ofBytes 2 a.value

/-- The value of a message. -/
def ofMessage (m : Message) : AnyValue := ⟨m.text 1, m.bytes 2⟩

end AnyValue

end AuthGate
