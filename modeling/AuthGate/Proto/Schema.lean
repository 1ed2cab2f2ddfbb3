set_option autoImplicit false

/-! # Schemas of messages

What the fields of a message are: their numbers, their names and the kinds of value they hold. A
schema lists message types and enumerations by full name; fields refer to them by that name. -/

namespace AuthGate.Proto

/-- The kind of a field's values. -/
inductive Kind where
  | double
  | float
  | int32
  | int64
  | uint32
  | uint64
  | sint32
  | sint64
  | fixed32
  | fixed64
  | sfixed32
  | sfixed64
  | bool
  | string
  | bytes
  | enumeration (type : String)
  | message (type : String)
  | group (type : String)
  deriving DecidableEq, Repr

/-- How many values a field holds. -/
inductive Arity where
  | one
  | many
  /-- Entries by key. The field's kind is the message type of an entry, whose fields 1 and 2 are the
      key and the value. -/
  | map
  deriving DecidableEq, Repr

/-- A field of a message type. -/
structure Field where
  number : Nat
  name : String
  kind : Kind
  arity : Arity
  /-- The choice that the field belongs to: at most one field of a choice is set. -/
  choice : Option String
  /-- Whether a field that holds the kind's default differs from one that is not set. -/
  presence : Bool
  /-- The field's name in JSON. -/
  jsonName : String
  deriving Repr

/-- A message type. -/
structure MessageType where
  name : String
  fields : List Field
  deriving Repr

/-- An enumeration: its names with their numbers. -/
structure Enumeration where
  name : String
  values : List (String × Int)
  deriving Repr

/-- A method of a service. The types of its messages are full names. -/
structure Method where
  name : String
  input : String
  output : String
  deriving Repr

/-- A service. -/
structure Service where
  name : String
  methods : List Method
  deriving Repr

/-- The types and services that are known. -/
structure Schema where
  messages : List MessageType
  enumerations : List Enumeration
  services : List Service
  deriving Repr

namespace Field

/-- A field of one value without a default of its own, whose JSON name is its name. -/
def single (number : Nat) (name : String) (kind : Kind) : Field :=
  { number, name, kind, arity := .one, choice := none, presence := false, jsonName := name }

/-- A field that is either set or not. -/
def optional (number : Nat) (name : String) (kind : Kind) : Field :=
  { single number name kind with presence := true }

/-- A field that holds a message. -/
def nested (number : Nat) (name type : String) : Field :=
  optional number name (.message type)

/-- A field of any number of values. -/
def repeated (number : Nat) (name : String) (kind : Kind) : Field :=
  { single number name kind with arity := .many }

/-- A field of entries, each a message of the type. -/
def mapOf (number : Nat) (name entry : String) : Field :=
  { single number name (.message entry) with arity := .map }

/-- A member of a choice. -/
def member (choice : String) (number : Nat) (name : String) (kind : Kind) : Field :=
  { optional number name kind with choice := some choice }

end Field

namespace MessageType

/-- The field with a number. -/
def field? (t : MessageType) (number : Nat) : Option Field :=
  t.fields.find? (·.number == number)

/-- The type of the entries of a map. -/
def entry (name : String) (key value : Kind) : MessageType :=
  { name, fields := [.single 1 "key" key,
      match value with
      | .message _ => .optional 2 "value" value
      | _ => .single 2 "value" value] }

end MessageType

namespace Schema

/-- The message type with a full name. -/
def message? (s : Schema) (name : String) : Option MessageType :=
  s.messages.find? (·.name == name)

/-- The enumeration with a full name. -/
def enumeration? (s : Schema) (name : String) : Option Enumeration :=
  s.enumerations.find? (·.name == name)

/-- The service with a full name. -/
def service? (s : Schema) (name : String) : Option Service :=
  s.services.find? (·.name == name)

/-- A schema of message types alone. -/
def ofMessages (messages : List MessageType) : Schema := ⟨messages, [], []⟩

end Schema

end AuthGate.Proto
