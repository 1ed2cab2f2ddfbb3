import AuthGate.Decimal.Double

set_option autoImplicit false

/-! # Structs

The dynamic values that travel in messages: like JSON, but every number is a double, and a value may
be left unset. -/

namespace AuthGate

/-- A dynamic value of a message. -/
inductive StructValue where
  | unset
  /-- Null, with the number it was sent with; zero is the only one that is defined. -/
  | null (number : Int)
  | bool (b : Bool)
  | number (d : Double)
  | string (s : String)
  | list (items : List StructValue)
  | struct (fields : List (String × StructValue))
  deriving Inhabited

/-- Named dynamic values. -/
abbrev Struct := List (String × StructValue)

end AuthGate
