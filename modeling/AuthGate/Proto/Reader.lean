import AuthGate.Proto.Message
import AuthGate.Proto.Varint
import AuthGate.Text.Utf8

set_option autoImplicit false

/-! # Reading messages

Bytes are read into a message one field after the other. A field that the type does not have is
skipped; a field read again replaces what it held, adds to it, or, if it holds a message, is merged
into that. Messages, map entries and groups may be nested `maxDepth` deep, and that is what the
recursion goes down on. -/

namespace AuthGate.Proto

/-- How deep messages may be nested. -/
def maxDepth : Nat := 100

/-- How the bytes of a field are laid out. -/
inductive WireType where
  | varint
  | eight
  | delimited
  | groupStart
  | groupEnd
  | four
  deriving DecidableEq, Repr

/-- The wire type with a number. -/
def WireType.ofNat? : Nat → Option WireType
  | 0 => some .varint
  | 1 => some .eight
  | 2 => some .delimited
  | 3 => some .groupStart
  | 4 => some .groupEnd
  | 5 => some .four
  | _ => none

/-- The number of a wire type. -/
def WireType.toNat : WireType → Nat
  | .varint => 0
  | .eight => 1
  | .delimited => 2
  | .groupStart => 3
  | .groupEnd => 4
  | .four => 5

/-- The wire type that values of a kind have. -/
def Kind.wireType : Kind → WireType
  | .double => .eight
  | .fixed64 => .eight
  | .sfixed64 => .eight
  | .float => .four
  | .fixed32 => .four
  | .sfixed32 => .four
  | .string => .delimited
  | .bytes => .delimited
  | .message _ => .delimited
  | .group _ => .groupStart
  | _ => .varint

/-- Whether many values of the kind may stand together without keys. -/
def Kind.isPackable (k : Kind) : Bool :=
  k.wireType == .varint || k.wireType == .eight || k.wireType == .four

/-! ## Pieces -/

/-- The first `n` bytes. -/
def take? (n : Nat) (bs : List UInt8) : Option (List UInt8 × List UInt8) :=
  if n ≤ bs.length then some (bs.take n, bs.drop n) else none

/-- Bytes after their number. -/
def delimited : Reader (List UInt8) := fun bs => do
  let (n, bs) ← Varint.decode bs
  take? n bs

/-- The number that bytes are, the least significant first. -/
def littleEndian (bs : List UInt8) : Nat := bs.foldr (fun b n => b.toNat + 256 * n) 0

/-- A number of so many bytes. -/
def fixed (width : Nat) : Reader Nat := fun bs => do
  let (word, bs) ← take? width bs
  return (littleEndian word, bs)

/-- The key before a field: its number, not zero, and its wire type. -/
def fieldKey : Reader (Nat × WireType) := fun bs => do
  let (key, bs) ← Varint.decode bs
  let wire ← WireType.ofNat? (key % 8)
  if key < 0x100000000 && 0 < key / 8 then return ((key / 8, wire), bs) else none

/-- A word of so many bits as a signed number. -/
def signed (width n : Nat) : Int := Int.bmod n (Nat.pow 2 width)

/-- The number that alternates between the signs as `n` rises: 0, -1, 1, -2, … -/
def zigzag (n : Nat) : Int := if n % 2 = 0 then (n / 2 : Nat) else -((n / 2 : Nat) : Int) - 1

/-- A value of a kind that holds no message, its wire type known to be right. -/
def scalar (kind : Kind) : Reader Value := fun bs =>
  match kind with
  | .double => do
    let (n, bs) ← fixed 8 bs
    return (.double ⟨n.toUInt64⟩, bs)
  | .float => do
    let (n, bs) ← fixed 4 bs
    return (.single n.toUInt32, bs)
  | .fixed32 => do
    let (n, bs) ← fixed 4 bs
    return (.int n, bs)
  | .fixed64 => do
    let (n, bs) ← fixed 8 bs
    return (.int n, bs)
  | .sfixed32 => do
    let (n, bs) ← fixed 4 bs
    return (.int (signed 32 n), bs)
  | .sfixed64 => do
    let (n, bs) ← fixed 8 bs
    return (.int (signed 64 n), bs)
  | .string => do
    let (word, bs) ← delimited bs
    let text ← Text.Utf8.decode? word
    return (.text (String.ofList text), bs)
  | .bytes => do
    let (word, bs) ← delimited bs
    return (.bytes word, bs)
  | .message _ => none
  | .group _ => none
  | kind => do
    let (n, bs) ← Varint.decode bs
    let value : Value :=
      match kind with
      | .bool => .bool (n != 0)
      | .uint32 => .int (n % 0x100000000 : Nat)
      | .uint64 => .int n
      | .int64 => .int (signed 64 n)
      | .sint32 => .int (zigzag (n % 0x100000000))
      | .sint64 => .int (zigzag n)
      | _ => .int (signed 32 n)
    return (value, bs)

/-- Repeats a step until no bytes are left. Each step takes at least one. -/
def untilEnd {α : Type} (step : α → Reader α) : Nat → α → List UInt8 → Option α
  | _, a, [] => some a
  | 0, _, _ => none
  | fuel + 1, a, bs => do
    let (a, bs) ← step a bs
    untilEnd step fuel a bs

/-- Repeats a step on the fields of a group until its end. -/
def untilGroupEnd {α : Type} (number : Nat) (step : Nat → WireType → α → Reader α) :
    Nat → α → Reader α
  | 0, _, _ => none
  | fuel + 1, a, bs => do
    let ((n, wire), bs) ← fieldKey bs
    if wire = .groupEnd then
      if n = number then return (a, bs) else none
    else
      let (a, bs) ← step n wire a bs
      untilGroupEnd number step fuel a bs

/-- Past a field whose key has been read. -/
def skip : Nat → Nat → WireType → List UInt8 → Option (List UInt8)
  | 0, _, _, _ => none
  | depth + 1, number, wire, bs =>
    match wire with
    | .varint => (Varint.decode bs).map (·.2)
    | .eight => (take? 8 bs).map (·.2)
    | .four => (take? 4 bs).map (·.2)
    | .delimited => (delimited bs).map (·.2)
    | .groupStart =>
      (untilGroupEnd number
        (fun n wire (_ : Unit) bs => (skip depth n wire bs).map fun rest => ((), rest))
        (bs.length + 1) () bs).map (·.2)
    | .groupEnd => none

/-! ## Fields -/

/-- The message with a field of one value set. The other members of its choice are no longer set,
    and neither is the field itself if it holds a default that means nothing. -/
def Message.assign (type : MessageType) (f : Field) (v : Value) (m : Message) : Message :=
  let others :=
    match f.choice with
    | none => []
    | some c => (type.fields.filter fun g => g.choice == some c && g.number != f.number).map
        (·.number)
  let m := m.without others
  if !f.presence && v.isDefault then m.without [f.number] else m.set f.number (.one v)

/-- The message with values added to those of a field. -/
def Message.extend (f : Field) (vs : List Value) (m : Message) : Message :=
  let all := m.many f.number ++ vs
  if all.isEmpty then m else m.set f.number (.many all)

/-- The key that a value is. -/
def Key.ofValue? : Value → Option Key
  | .bool b => some (.bool b)
  | .int i => some (.int i)
  | .text s => some (.text s)
  | _ => none

/-- A value set under its key; a key that is new comes last. -/
def putEntry (key : Key) (value : Value) : List (Key × Value) → List (Key × Value)
  | [] => [(key, value)]
  | (k, v) :: rest =>
    if k = key then (key, value) :: rest else (k, v) :: putEntry key value rest

/-- The key and the value of a map's entry. -/
def entryOf? (type : MessageType) (entry : Message) : Option (Key × Value) := do
  let key ← type.field? 1
  let value ← type.field? 2
  let k ← Key.ofValue? ((entry.one? 1).getD key.kind.default)
  return (k, (entry.one? 2).getD value.kind.default)

/-- The values of a packed field. -/
def packed (kind : Kind) (bs : List UInt8) : Option (List Value) :=
  (untilEnd (fun vs bs => (scalar kind bs).map fun (v, bs) => (v :: vs, bs)) bs.length [] bs).map
    (·.reverse)

/-- One field whose key has been read, merged into a message. `nested` reads a field of a message
    one level down, and is none at the last level. -/
def mergeOne (s : Schema) (type : MessageType) (f : Field) (wire : WireType)
    (nested : Option (MessageType → Nat → WireType → Message → Reader Message)) (m : Message) :
    Reader Message := fun bs =>
  -- The fields that bytes hold, merged into a message of the type.
  let inner (t : MessageType) (old : Message) (bs : List UInt8) : Option Message := do
    let step ← nested
    untilEnd (fun m bs => do
      let ((n, wire), bs) ← fieldKey bs
      step t n wire m bs) bs.length old bs
  match f.kind with
  | .message name => do
    let t ← s.message? name
    match f.arity with
    | .map =>
      let (body, bs) ← delimited bs
      let (k, v) ← entryOf? t (← inner t [] body)
      return (m.set f.number (.map (putEntry k v (m.entries f.number))), bs)
    | .many =>
      if wire = .delimited then
        let (body, bs) ← delimited bs
        return (m.extend f [.message (← inner t [] body)], bs)
      else none
    | .one =>
      if wire = .delimited then
        let (body, bs) ← delimited bs
        return (m.assign type f (.message (← inner t ((m.nested? f.number).getD []) body)), bs)
      else none
  | .group name => do
    let t ← s.message? name
    let step ← nested
    if wire = .groupStart then
      let old := if f.arity = .one then (m.nested? f.number).getD [] else []
      let (body, bs) ← untilGroupEnd f.number (fun n wire m bs => step t n wire m bs)
        (bs.length + 1) old bs
      let v : Value := .message body
      return (if f.arity = .one then m.assign type f v else m.extend f [v], bs)
    else none
  | kind =>
    if f.arity = .one then
      if wire = kind.wireType then do
        let (v, bs) ← scalar kind bs
        return (m.assign type f v, bs)
      else none
    else if wire = .delimited && kind.isPackable then do
      let (body, bs) ← delimited bs
      return (m.extend f (← packed kind body), bs)
    else if wire = kind.wireType then do
      let (v, bs) ← scalar kind bs
      return (m.extend f [v], bs)
    else none

/-- One field whose key has been read, in a message below which `depth` more may be nested. -/
def mergeField (s : Schema) : Nat → MessageType → Nat → WireType → Message → Reader Message
  | depth, type, number, wire, m, bs =>
    match type.field? number with
    | none => do
      let bs ← skip depth number wire bs
      return (m, bs)
    | some f =>
      match depth with
      | 0 => mergeOne s type f wire none m bs
      | depth + 1 => mergeOne s type f wire (some (mergeField s depth)) m bs

/-- Bytes merged into a message of a type. -/
def merge (s : Schema) (type : MessageType) (m : Message) (bs : List UInt8) : Option Message :=
  untilEnd (fun m bs => do
    let ((n, wire), bs) ← fieldKey bs
    mergeField s maxDepth type n wire m bs) bs.length m bs

/-- The message of a type that bytes are. -/
def decode? (s : Schema) (name : String) (bs : List UInt8) : Option Message := do
  let type ← s.message? name
  merge s type [] bs

end AuthGate.Proto
