import AuthGate.Json.Basic
import AuthGate.Struct.Basic

set_option autoImplicit false

/-! # Structs and JSON

What JSON cannot say of a struct, a value that is unset or a number that is not finite, becomes
null; what a struct cannot say of JSON, a whole number, becomes the nearest double. -/

namespace AuthGate

mutual

/-- A dynamic value as a document. -/
def StructValue.toJson : StructValue → Json
  | .unset => .null
  | .null _ => .null
  | .bool b => .bool b
  | .number d => .ofDouble d
  | .string s => .string s
  | .list items => .array (StructValue.itemsToJson items)
  | .struct fields => .ofFields (StructValue.fieldsToJson fields)

/-- Dynamic values as documents. -/
def StructValue.itemsToJson : List StructValue → List Json
  | [] => []
  | v :: vs => v.toJson :: itemsToJson vs

/-- Named dynamic values as named documents. -/
def StructValue.fieldsToJson : List (String × StructValue) → List (String × Json)
  | [] => []
  | (k, v) :: rest => (k, v.toJson) :: fieldsToJson rest

end

mutual

/-- Whether every number in a dynamic value is finite. -/
def StructValue.isFinite : StructValue → Bool
  | .number d => d.isFinite
  | .list items => StructValue.areFinite items
  | .struct fields => StructValue.fieldsAreFinite fields
  | _ => true

/-- Whether every number in dynamic values is finite. -/
def StructValue.areFinite : List StructValue → Bool
  | [] => true
  | v :: vs => v.isFinite && areFinite vs

/-- Whether every number in named dynamic values is finite. -/
def StructValue.fieldsAreFinite : List (String × StructValue) → Bool
  | [] => true
  | (_, v) :: rest => v.isFinite && fieldsAreFinite rest

end

/-- A dynamic value as a document, if JSON has all of its numbers. -/
def StructValue.exactJson? (v : StructValue) : Option Json :=
  if v.isFinite then some v.toJson else none

/-- A struct as a document. -/
def Struct.toJson (s : Struct) : Json := .ofFields (StructValue.fieldsToJson s)

mutual

/-- A document as a dynamic value. -/
def StructValue.ofJson : Json → StructValue
  | .null => .null 0
  | .bool b => .bool b
  | .number n => .number n.toDouble
  | .string s => .string s
  | .array items => .list (StructValue.itemsOfJson items)
  | .object fields => .struct (StructValue.fieldsOfJson fields)

/-- Documents as dynamic values. -/
def StructValue.itemsOfJson : List Json → List StructValue
  | [] => []
  | v :: vs => StructValue.ofJson v :: itemsOfJson vs

/-- Named documents as named dynamic values. -/
def StructValue.fieldsOfJson : List (String × Json) → List (String × StructValue)
  | [] => []
  | (k, v) :: rest => (k, StructValue.ofJson v) :: fieldsOfJson rest

end

/-- The fields of an object as a struct. -/
def Struct.ofFields (fields : List (String × Json)) : Struct := StructValue.fieldsOfJson fields

end AuthGate
