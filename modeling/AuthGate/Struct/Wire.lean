import AuthGate.Fields
import AuthGate.Proto.Message
import AuthGate.Struct.Basic

set_option autoImplicit false

/-! # Structs on the wire

The messages that structs travel in. Six fields of a value are a choice of which at most one is set;
none of them set is a value that is unset. -/

namespace AuthGate

open Proto

namespace Struct

/-- The messages of structs. -/
def types : List MessageType := [
  .entry "ValueEntry" .string (.message "Value"),
  ⟨"Struct", [.mapOf 1 "fields" "ValueEntry"]⟩,
  ⟨"Value", [.member "kind" 1 "null_value" (.enumeration "NullValue"),
    .member "kind" 2 "number_value" .double, .member "kind" 3 "string_value" .string,
    .member "kind" 4 "bool_value" .bool, .member "kind" 5 "struct_value" (.message "Struct"),
    .member "kind" 6 "list_value" (.message "ListValue")]⟩,
  ⟨"ListValue", [.repeated 1 "values" (.message "Value")]⟩]

end Struct

/-! ## From messages -/

mutual

/-- The dynamic value of a value's message. -/
def StructValue.ofValue : Value → StructValue
  | .message fields => StructValue.ofChoice fields
  | _ => .unset

/-- The member of the choice that is set. -/
def StructValue.ofChoice : List (Nat × Content) → StructValue
  | (1, .one (.int i)) :: _ => .null i
  | (2, .one (.double d)) :: _ => .number d
  | (3, .one (.text s)) :: _ => .string s
  | (4, .one (.bool b)) :: _ => .bool b
  | (5, .one (.message fields)) :: _ => .struct (StructValue.ofStructFields fields)
  | (6, .one (.message fields)) :: _ => .list (StructValue.ofListFields fields)
  | _ => .unset

/-- The named values in the fields of a struct's message, sorted by name. -/
def StructValue.ofStructFields : List (Nat × Content) → List (String × StructValue)
  | (1, .map entries) :: _ => Fields.ofList (StructValue.ofEntries entries)
  | _ => []

/-- The named values of entries. -/
def StructValue.ofEntries : List (Key × Value) → List (String × StructValue)
  | [] => []
  | (.text name, v) :: rest => (name, StructValue.ofValue v) :: ofEntries rest
  | _ :: rest => ofEntries rest

/-- The values in the fields of a list's message. -/
def StructValue.ofListFields : List (Nat × Content) → List StructValue
  | (1, .many vs) :: _ => StructValue.ofValues vs
  | _ => []

/-- The dynamic values of values' messages. -/
def StructValue.ofValues : List Value → List StructValue
  | [] => []
  | v :: vs => StructValue.ofValue v :: ofValues vs

end

/-- The struct of a message. -/
def Struct.ofMessage (m : Message) : Struct := StructValue.ofStructFields m

/-! ## To messages -/

mutual

/-- The message of a dynamic value. -/
def StructValue.toMessage : StructValue → List (Nat × Content)
  | .unset => []
  | .null i => [(1, .one (.int i))]
  | .number d => [(2, .one (.double d))]
  | .string s => [(3, .one (.text s))]
  | .bool b => [(4, .one (.bool b))]
  | .struct fields => [(5, .one (.message (StructValue.structMessage fields)))]
  | .list items =>
    [(6, .one (.message (if items.isEmpty then [] else [(1, .many (StructValue.toValues items))])))]

/-- The message of named values. -/
def StructValue.structMessage (fields : List (String × StructValue)) : List (Nat × Content) :=
  if fields.isEmpty then [] else [(1, .map (StructValue.toEntries fields))]

/-- The entries of named values. -/
def StructValue.toEntries : List (String × StructValue) → List (Key × Value)
  | [] => []
  | (k, v) :: rest => (.text k, .message v.toMessage) :: toEntries rest

/-- The messages of dynamic values. -/
def StructValue.toValues : List StructValue → List Value
  | [] => []
  | v :: vs => .message v.toMessage :: toValues vs

end

/-- The message of a struct. -/
def Struct.toMessage (s : Struct) : Message := StructValue.structMessage s

end AuthGate
