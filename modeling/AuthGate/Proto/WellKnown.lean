import AuthGate.Instant
import AuthGate.Proto.Schema
import AuthGate.Struct.Any
import AuthGate.Struct.Json
import AuthGate.Struct.Wire
import AuthGate.Text.Base64
import AuthGate.Text.Blank

set_option autoImplicit false

/-! # Types with a form of their own

Some types that schemas share are not written as objects of their fields in JSON: a moment is a
text, a dynamic value is the document that it stands for, a message around one value is that value.
Not every message of these types has a form: a moment must be in range, a number among dynamic
values finite, a path readable again, and the type of a value that is named must be known. -/

namespace AuthGate

/-! ## Values of named types -/

/-- The name of a value's type: what follows the last slash, with or without a dot before it. -/
def AnyValue.typeName? (a : AnyValue) : Option String :=
  (Text.splitOnce '/' a.typeUrl.toList.reverse).map fun (last, _) =>
    let name := last.reverse
    String.ofList ((Text.dropStart? ['.'] name).getD name)

namespace Proto

/-! ## Moments and spans of time -/

/-- A moment of the years from 1 to 9999. -/
def timestampForm? (seconds nanos : Int) : Option AuthGate.Json :=
  if -62135596800 ≤ seconds ∧ seconds ≤ 253402300799 ∧ 0 ≤ nanos ∧ nanos < 1000000000 then
    some (.string (Instant.render ⟨seconds, nanos.toNat⟩))
  else none

/-- A span of at most ten thousand years, its seconds and nanoseconds of one sign. -/
def durationForm? (seconds nanos : Int) : Option AuthGate.Json :=
  if seconds.natAbs ≤ 315576000000 ∧ nanos.natAbs < 1000000000 ∧ 0 ≤ seconds * nanos then
    let sign := if seconds < 0 ∨ nanos < 0 then ['-'] else []
    some (.string (String.ofList (sign ++ Nat.toDigits 10 seconds.natAbs ++
      Instant.fractionChars nanos.natAbs ++ ['s'])))
  else none

/-! ## Paths of fields -/

/-- A path in camel case: an underscore is dropped and the letter after it is upper case, which
    must be told from a letter that is. -/
def pathForm? : Bool → List Char → Option (List Char)
  | upper, [] => if upper then none else some []
  | true, c :: cs => if c.isLower then (pathForm? false cs).map (c.toUpper :: ·) else none
  | false, c :: cs =>
    if c.isUpper then none
    else if c = '_' then pathForm? true cs
    else (pathForm? false cs).map (c :: ·)

/-- Paths in camel case with commas between them. -/
def maskForm? (paths : List String) : Option AuthGate.Json :=
  (paths.mapM fun path => pathForm? false path.toList).map fun forms =>
    .string (String.ofList (forms.intersperse [',']).flatten)

/-! ## Scalars -/

/-- A double as JSON; one that is not finite is written as text. -/
def doubleJson (d : Double) : AuthGate.Json :=
  if d.isNaN then .string "NaN"
  else if d.isFinite then .ofDouble d
  else .string (if d.isNegative then "-Infinity" else "Infinity")

/-- A value of an enumeration: its first name, or its number. The one value that stands for null is
    written so. -/
def enumerationJson (s : Schema) (type : String) (i : Int) : AuthGate.Json :=
  if type = "google.protobuf.NullValue" then .null
  else
    match ((s.enumeration? type).map (·.values)).getD [] |>.find? (·.2 == i) with
    | some (name, _) => .string name
    | none => .ofInt i

/-- A whole number of a kind. -/
def intJson (s : Schema) (kind : Kind) (i : Int) : AuthGate.Json :=
  match kind with
  | .enumeration type => enumerationJson s type i
  | .int64 | .uint64 | .sint64 | .fixed64 | .sfixed64 => .string (String.ofList (Text.ofInt i))
  | _ => .ofInt i

/-- A value of a kind that is no message. -/
def scalarJson (s : Schema) (kind : Kind) : Value → AuthGate.Json
  | .bool b => .bool b
  | .int i => intJson s kind i
  | .double d => doubleJson d
  | .single bits => doubleJson (.ofSingle bits)
  | .text t => .string t
  | .bytes bs => .string (String.ofList (Text.Base64.encode bs))
  | .message _ => .ofFields []

/-! ## The types -/

/-- A type whose messages have a form of their own. -/
inductive WellKnown where
  | any
  | timestamp
  | duration
  | struct
  | value
  | list
  | mask
  | empty
  /-- A message around one value of a kind. -/
  | wrapper (kind : Kind)
  deriving DecidableEq, Repr

namespace WellKnown

/-- The types by full name. -/
def types : List (String × WellKnown) := [
  ("google.protobuf.Any", .any),
  ("google.protobuf.Timestamp", .timestamp),
  ("google.protobuf.Duration", .duration),
  ("google.protobuf.Struct", .struct),
  ("google.protobuf.Value", .value),
  ("google.protobuf.ListValue", .list),
  ("google.protobuf.FieldMask", .mask),
  ("google.protobuf.Empty", .empty),
  ("google.protobuf.DoubleValue", .wrapper .double),
  ("google.protobuf.FloatValue", .wrapper .float),
  ("google.protobuf.Int64Value", .wrapper .int64),
  ("google.protobuf.UInt64Value", .wrapper .uint64),
  ("google.protobuf.Int32Value", .wrapper .int32),
  ("google.protobuf.UInt32Value", .wrapper .uint32),
  ("google.protobuf.BoolValue", .wrapper .bool),
  ("google.protobuf.StringValue", .wrapper .string),
  ("google.protobuf.BytesValue", .wrapper .bytes)]

/-- The type with a full name. -/
def ofName? (name : String) : Option WellKnown := Fields.get? name types

/-- A message of the type in its form; `opened?` gives that of a value whose type is named. -/
def form? (s : Schema) (opened? : AnyValue → Option AuthGate.Json) (m : Message) :
    WellKnown → Option AuthGate.Json
  | .any => opened? (.ofMessage m)
  | .timestamp => timestampForm? (m.int 1) (m.int 2)
  | .duration => durationForm? (m.int 1) (m.int 2)
  | .struct => (StructValue.struct (Struct.ofMessage m)).exactJson?
  | .value => (StructValue.ofChoice m).exactJson?
  | .list => (StructValue.list (StructValue.ofListFields m)).exactJson?
  | .mask => maskForm? (m.texts 1)
  | .empty => some (.ofFields [])
  | .wrapper kind => some (scalarJson s kind ((m.one? 1).getD kind.default))

end WellKnown

end Proto

end AuthGate
