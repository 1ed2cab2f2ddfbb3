import AuthGate.Proto.Reader

set_option autoImplicit false

/-! # Writing messages

The fields of a message by rising number, each as its key and its value; many numbers of one field
stand together after one key. What a field holds beyond the width of its kind is lost. -/

namespace AuthGate.Proto

/-- A number in so many bytes, the least significant first. -/
def toLittleEndian : Nat → Nat → List UInt8
  | 0, _ => []
  | width + 1, n => (n % 256).toUInt8 :: toLittleEndian width (n / 256)

/-- The word of so many bits for a signed number. -/
def unsigned (width : Nat) (i : Int) : Nat := (i % (Nat.pow 2 width : Nat)).toNat

/-- The place of a number among 0, -1, 1, -2, … -/
def unzigzag (i : Int) : Nat := if 0 ≤ i then 2 * i.toNat else 2 * (-i).toNat - 1

/-- The key before a field. -/
def keyBytes (number : Nat) (wire : WireType) : List UInt8 :=
  Varint.encode (number * 8 + wire.toNat)

/-- Bytes after their number. -/
def delimit (bs : List UInt8) : List UInt8 := Varint.encode bs.length ++ bs

/-- The bytes of a value that is no message. -/
def scalarBytes (kind : Kind) : Value → List UInt8
  | .bool b => Varint.encode (if b then 1 else 0)
  | .double d => toLittleEndian 8 d.bits.toNat
  | .single bits => toLittleEndian 4 bits.toNat
  | .text s => delimit (Text.Utf8.encode s.toList)
  | .bytes bs => delimit bs
  | .int i =>
    match kind with
    | .sint32 => Varint.encode (unzigzag i)
    | .sint64 => Varint.encode (unzigzag i)
    | .fixed32 => toLittleEndian 4 (unsigned 32 i)
    | .sfixed32 => toLittleEndian 4 (unsigned 32 i)
    | .fixed64 => toLittleEndian 8 (unsigned 64 i)
    | .sfixed64 => toLittleEndian 8 (unsigned 64 i)
    | .uint32 => Varint.encode (unsigned 32 i)
    | _ => Varint.encode (unsigned 64 i)
  | .message _ => []

/-- The value that a key is. -/
def Key.toValue : Key → Value
  | .bool b => .bool b
  | .int i => .int i
  | .text s => .text s

/-- The entry of a map as a message; a default is left out, an empty message too. -/
def entryMessage (key : Key) (value : Value) : Message :=
  (if key.toValue.isDefault then [] else [(1, .one key.toValue)]) ++
    (if value.isDefault then [] else [(2, .one value)])

/-- One value of a field, `nested` writing the fields of a message. -/
def valueBytes (s : Schema) (nested : MessageType → Message → List UInt8) (f : Field)
    (v : Value) : List UInt8 :=
  match f.kind, v with
  | .message name, .message fields =>
    match s.message? name with
    | some t => keyBytes f.number .delimited ++ delimit (nested t fields)
    | none => []
  | .group name, .message fields =>
    match s.message? name with
    | some t => keyBytes f.number .groupStart ++ nested t fields ++ keyBytes f.number .groupEnd
    | none => []
  | kind, v => keyBytes f.number kind.wireType ++ scalarBytes kind v

/-- What a field holds. -/
def contentBytes (s : Schema) (nested : MessageType → Message → List UInt8) (f : Field) :
    Content → List UInt8
  | .one v => valueBytes s nested f v
  | .many vs =>
    if f.kind.isPackable then
      keyBytes f.number .delimited ++ delimit (vs.flatMap (scalarBytes f.kind))
    else vs.flatMap (valueBytes s nested f)
  | .map entries => entries.flatMap fun (k, v) => valueBytes s nested f (.message (entryMessage k v))

/-- The bytes of a message's fields; messages nested deeper than `depth` are left empty. -/
def fieldBytes (s : Schema) : Nat → MessageType → Message → List UInt8
  | 0, _, _ => []
  | depth + 1, type, m =>
    m.flatMap fun (number, content) =>
      match type.field? number with
      | some f => contentBytes s (fieldBytes s depth) f content
      | none => []

/-- The bytes of a message of a type. -/
def encode (s : Schema) (name : String) (m : Message) : List UInt8 :=
  match s.message? name with
  | some type => fieldBytes s (maxDepth + 1) type m
  | none => []

end AuthGate.Proto
