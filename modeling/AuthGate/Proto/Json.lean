import AuthGate.Proto.Reader
import AuthGate.Proto.WellKnown

set_option autoImplicit false

/-! # Messages as JSON

A message is an object of the fields that are set, under their JSON names, unless its type has a form
of its own. Numbers of 64 bits are written as text, since not every reader of JSON keeps them
exactly, bytes in base64 and enumeration values by name, or by number if they have none. A value
whose type is named is read as a message of that type and written as one, with the name beside it. -/

namespace AuthGate

namespace Proto

/-- The text of a key. -/
def Key.render : Key → String
  | .bool b => if b then "true" else "false"
  | .int i => String.ofList (Text.ofInt i)
  | .text s => s

/-- The kind of the values of a field: of a map, that of the values of its entries. -/
def valueKind (s : Schema) (f : Field) : Kind :=
  match f.arity, f.kind with
  | .map, .message entry =>
    match (s.message? entry).bind (·.field? 2) with
    | some value => value.kind
    | none => f.kind
  | _, kind => kind

/-- The type of the messages of a kind. -/
def Kind.messageType? (s : Schema) : Kind → Option MessageType
  | .message name => s.message? name
  | .group name => s.message? name
  | _ => none

/-- A message of a type: in the form that its type has, or else as the object of its fields. -/
def messageForm? (s : Schema) (opened? : AnyValue → Option AuthGate.Json) (type : MessageType)
    (m : Message) (fields? : Option (List (String × AuthGate.Json))) : Option AuthGate.Json :=
  match WellKnown.ofName? type.name with
  | some w => w.form? s opened? m
  | none => fields?.map .ofFields

mutual

/-- A value of a kind; `opened?` gives the form of a value whose type is named. -/
def Value.toJson? (s : Schema) (opened? : AnyValue → Option AuthGate.Json) (kind : Kind) :
    Value → Option AuthGate.Json
  | .message fields =>
    match kind.messageType? s with
    | some type => messageForm? s opened? type fields (fieldsToJson? s opened? type fields)
    | none => some (.ofFields [])
  | v => some (scalarJson s kind v)

/-- What a field whose values have a kind holds. -/
def Content.toJson? (s : Schema) (opened? : AnyValue → Option AuthGate.Json) (kind : Kind) :
    Content → Option AuthGate.Json
  | .one v => v.toJson? s opened? kind
  | .many vs => (valuesToJson? s opened? kind vs).map .array
  | .map entries => (entriesToJson? s opened? kind entries).map .ofFields

/-- Values of a kind. -/
def valuesToJson? (s : Schema) (opened? : AnyValue → Option AuthGate.Json) (kind : Kind) :
    List Value → Option (List AuthGate.Json)
  | [] => some []
  | v :: vs => do
    let form ← v.toJson? s opened? kind
    let forms ← valuesToJson? s opened? kind vs
    return form :: forms

/-- Entries whose values have a kind. -/
def entriesToJson? (s : Schema) (opened? : AnyValue → Option AuthGate.Json) (kind : Kind) :
    List (Key × Value) → Option (List (String × AuthGate.Json))
  | [] => some []
  | (k, v) :: rest => do
    let form ← v.toJson? s opened? kind
    let forms ← entriesToJson? s opened? kind rest
    return (k.render, form) :: forms

/-- The fields of a message of a type. -/
def fieldsToJson? (s : Schema) (opened? : AnyValue → Option AuthGate.Json) (type : MessageType) :
    List (Nat × Content) → Option (List (String × AuthGate.Json))
  | [] => some []
  | (number, content) :: rest =>
    match type.field? number with
    | some f => do
      let form ← content.toJson? s opened? (valueKind s f)
      let forms ← fieldsToJson? s opened? type rest
      return (f.jsonName, form) :: forms
    | none => fieldsToJson? s opened? type rest

end

/-- A message of a type, read from a value that names it, with the name beside it: a form of its own
    is one field more, and the fields of an object stay fields. -/
def namedForm? (s : Schema) (opened? : AnyValue → Option AuthGate.Json) (url : String)
    (type : MessageType) (m : Message) : Option AuthGate.Json :=
  let rest? :=
    match WellKnown.ofName? type.name with
    | some w => (w.form? s opened? m).map fun form => [("value", form)]
    | none => fieldsToJson? s opened? type m
  rest?.map fun rest => .ofFields (("@type", .string url) :: rest)

/-- A value whose type is named, with values of named types at most so many levels inside it. -/
def openWithin? (s : Schema) : Nat → AnyValue → Option AuthGate.Json
  | 0, _ => none
  | depth + 1, a => do
    let name ← a.typeName?
    let type ← s.message? name
    let m ← merge s type [] a.value
    namedForm? s (openWithin? s depth) a.typeUrl type m

end Proto

/-- A value whose type is named. Every value inside it is shorter, so there are no more levels of
    them than it has bytes. -/
def AnyValue.toJson? (s : Proto.Schema) (a : AnyValue) : Option Json :=
  Proto.openWithin? s (a.value.length + 1) a

namespace Proto

/-- A message of a type. -/
def Message.toJson? (s : Schema) (type : MessageType) (m : Message) : Option AuthGate.Json :=
  messageForm? s (AnyValue.toJson? s) type m (fieldsToJson? s (AnyValue.toJson? s) type m)

end Proto

end AuthGate
