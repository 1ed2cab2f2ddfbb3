import AuthGate.Proto.Descriptor.Names
import AuthGate.Text.Digits

set_option autoImplicit false

/-! # Fields in descriptor sets

A field has a number, a kind and perhaps a default, all of which must fit together; the numbers and the
names of a message's fields differ. -/

namespace AuthGate.Proto.DescriptorSet

/-- The kind that a number of the format stands for, unless it refers to a type. -/
def kind? : Int → Option Kind
  | 1 => some .double
  | 2 => some .float
  | 3 => some .int64
  | 4 => some .uint64
  | 5 => some .int32
  | 6 => some .fixed64
  | 7 => some .fixed32
  | 8 => some .bool
  | 9 => some .string
  | 12 => some .bytes
  | 13 => some .uint32
  | 15 => some .sfixed32
  | 16 => some .sfixed64
  | 17 => some .sint32
  | 18 => some .sint64
  | _ => none

/-- The JSON name of a field that is given none: every underscore is dropped and the letter after
    it is upper case. -/
def camelCase : Bool → List Char → List Char
  | _, [] => []
  | upper, c :: cs =>
    if c = '_' then camelCase true cs
    else (if upper then c.toUpper else c) :: camelCase false cs

/-- Whether a number may be that of a field. -/
def isFieldNumber (n : Int) : Bool :=
  1 ≤ n && n < 0x20000000 && !(19000 ≤ n && n < 20000)

/-- The names of the message types that are entries of maps. -/
def entryTypes (files : List File) : List String :=
  (files.flatMap (·.messages)).filterMap fun d =>
    if ((d.body.nested? 7).map (·.bool 7)).getD false then some d.name else none

/-- The kind of a field that stands in a scope. -/
def kindOf (names : Names) (seen : List String) (scope : String) (m : Message) :
    Except DescriptorFault Kind := do
  match (m.int? 5).bind kind? with
  | some k => return k
  | none =>
    match ← resolve names seen scope (m.text 6), m.int? 5 with
    | (type, .message), some 10 => return .group type
    | (_, .message), some 14 => .error (.invalidType scope (m.text 6))
    | (type, .message), _ => return .message type
    | (type, .enumeration), some 14 => return .enumeration type
    | (type, .enumeration), none => return .enumeration type
    | _, _ => .error (.invalidType scope (m.text 6))

/-- Whether a text is a number with a point or an exponent, or stands for no number or one without
    end. -/
def isDecimal (cs : List Char) : Bool :=
  let digits := (Text.dropStart? ['-'] cs).getD cs
  if [['i', 'n', 'f'], ['n', 'a', 'n']].contains digits then true
  else
    let (size, exponent) := (Text.splitOnce 'e' (digits.map Text.asciiLower)).getD (digits, ['0'])
    let (whole, part) := (Text.splitOnce '.' size).getD (size, [])
    let unsigned := (Text.dropStart? ['-'] exponent).getD ((Text.dropStart? ['+'] exponent).getD
      exponent)
    (whole ++ part).all Text.isDigit && !(whole ++ part).isEmpty && unsigned.all Text.isDigit &&
      !unsigned.isEmpty

/-- Whether a text is a whole number in a range. -/
def isWithin (low high : Int) (cs : List Char) : Bool :=
  match Text.signedInBase? 10 cs with
  | some i => low ≤ i && i < high
  | none => false

/-- Whether a text is a default for values of a kind; the values of enumerations are given. -/
def isDefault (valuesOf : String → List String) (kind : Kind) (text : String) : Bool :=
  let cs := text.toList
  let int32 := isWithin (-0x80000000) 0x80000000 cs
  let int64 := isWithin (-0x8000000000000000) 0x8000000000000000 cs
  match kind with
  | .double => isDecimal cs
  | .float => isDecimal cs
  | .int32 => int32
  | .sint32 => int32
  | .sfixed32 => int32
  | .int64 => int64
  | .sint64 => int64
  | .sfixed64 => int64
  | .uint32 => isWithin 0 0x100000000 cs
  | .fixed32 => isWithin 0 0x100000000 cs
  | .uint64 => isWithin 0 0x10000000000000000 cs
  | .fixed64 => isWithin 0 0x10000000000000000 cs
  | .bool => text == "true" || text == "false"
  | .string => true
  | .bytes => true
  | .enumeration type => (valuesOf type).contains text
  | .message _ => false
  | .group _ => false

/-- What fields are read with. -/
structure FieldScope where
  names : Names
  /-- The files whose names are seen. -/
  seen : List String
  /-- The message types that are entries of maps. -/
  entries : List String
  /-- The values of an enumeration. -/
  valuesOf : String → List String
  /-- Whether fields of one scalar have no presence of their own. -/
  implicit : Bool

/-- Nothing, if a default is right for its field. -/
def checkDefault (c : FieldScope) (full : String) (kind : Kind) (m : Message) :
    Except DescriptorFault Unit :=
  match m.one? 7 with
  | some (.text s) =>
    if isDefault c.valuesOf kind s then .ok () else .error (.invalidDefault full)
  | _ => .ok ()

/-- The choice that a field of a message belongs to. -/
def choiceOf (owner : Declared) (full : String) (m : Message) :
    Except DescriptorFault (Option String) :=
  match m.int? 9 with
  | none => .ok none
  | some i =>
    match if i < 0 then none else (owner.body.messages 8)[i.toNat]? with
    | some c => .ok (some (c.text 1))
    | none => .error (.invalidChoice full)

/-- A field of a message. -/
def fieldOf (c : FieldScope) (owner : Declared) (m : Message) : Except DescriptorFault Field := do
  let name := m.text 1
  let full := joined owner.name name
  let number := m.int 3
  if !isFieldNumber number then .error (.invalidNumber full number)
  let kind ← kindOf c.names c.seen owner.name m
  checkDefault c full kind m
  let choice ← choiceOf owner full m
  let repeated := m.int 4 == 3
  let isMessage :=
    match kind with
    | .message _ => true
    | .group _ => true
    | _ => false
  let arity : Arity :=
    match kind with
    | .message type => if repeated then (if c.entries.contains type then .map else .many) else .one
    | _ => if repeated then .many else .one
  return {
    number := number.toNat, name, kind, arity, choice,
    presence := !repeated && (isMessage || choice.isSome || !c.implicit),
    jsonName :=
      match m.one? 10 with
      | some (.text s) => s
      | _ => String.ofList (camelCase false name.toList) }

/-- The first element that stands in a list twice. -/
def firstRepeated? {α : Type} [BEq α] : List α → Option α
  | [] => none
  | x :: xs => if xs.contains x then some x else firstRepeated? xs

/-- A name as it is compared where names must differ in more than case and underscores. -/
def folded (name : String) : List Char := (name.toList.filter (· != '_')).map Text.asciiLower

/-- Nothing, if the elements of a list differ. -/
def checkDistinct {α : Type} [BEq α] (fault : α → DescriptorFault) (as : List α) :
    Except DescriptorFault Unit :=
  match firstRepeated? as with
  | some a => .error (fault a)
  | none => .ok ()

/-- Whether a number is from the start of a range up to its end, which belongs to it or not. -/
def isInRange (inclusive : Bool) (n : Int) (range : Message) : Bool :=
  range.int 1 ≤ n && (n < range.int 2 || inclusive && n == range.int 2)

/-- Nothing, if no number is in one of the ranges. -/
def checkReserved (inclusive : Bool) (owner : String) (ranges : List Message) (ns : List Int) :
    Except DescriptorFault Unit :=
  match ns.find? fun n => ranges.any (isInRange inclusive n) with
  | some n => .error (.reservedNumber owner n)
  | none => .ok ()

/-- A message type. -/
def messageOf (c : FieldScope) (d : Declared) : Except DescriptorFault MessageType := do
  let fields ← (d.body.messages 2).mapM (fieldOf c d)
  checkDistinct (fun n : Nat => .duplicateNumber d.name n) (fields.map (·.number))
  checkReserved false d.name (d.body.messages 9 ++ d.body.messages 5)
    (fields.map fun f => (f.number : Int))
  checkDistinct (fun n => .duplicateName (joined d.name n)) (fields.map (·.jsonName))
  if c.implicit then
    checkDistinct (fun cs => .duplicateName (joined d.name (String.ofList cs)))
      (fields.map fun f => folded f.name)
  return ⟨d.name, fields⟩

/-- A field that a message is extended with by a number that is left for that, and the full name of
    the message. Its JSON name is its own full name in brackets. -/
def extensionOf (c : FieldScope) (extensible : List (String × List Message)) (d : Declared) :
    Except DescriptorFault (String × Field) := do
  let (extended, kind) ← resolve c.names c.seen d.scope (d.body.text 2)
  if kind ≠ .message then .error (.invalidType d.scope (d.body.text 2))
  let ranges := (Fields.get? extended extensible).getD []
  if !ranges.any (isInRange false (d.body.int 3)) then
    .error (.invalidNumber d.name (d.body.int 3))
  let kind ← kindOf c.names c.seen d.scope d.body
  checkDefault c d.name kind d.body
  let repeated := d.body.int 4 == 3
  return (extended, {
    number := (d.body.int 3).toNat, name := d.body.text 1, kind,
    arity := if repeated then .many else .one, choice := none, presence := !repeated,
    jsonName := "[" ++ d.name ++ "]" })

/-- A message type with the fields that it is extended with. -/
def extended (extensions : List (String × Field)) (t : MessageType) : MessageType :=
  { t with fields := t.fields ++ (extensions.filter (·.1 == t.name)).map (·.2) }

end AuthGate.Proto.DescriptorSet
