import AuthGate.Decimal.Double
import AuthGate.Proto.Schema

set_option autoImplicit false

/-! # Messages

A message is the list of its fields that are set, by rising number. A field that holds its kind's
default is set only if the schema says that this differs from a field that is not set, so two
messages that mean the same are equal. -/

namespace AuthGate.Proto

/-- The key of an entry of a map. -/
inductive Key where
  | bool (b : Bool)
  | int (i : Int)
  | text (s : String)
  deriving DecidableEq, Repr

mutual

/-- One value. Whole numbers of every kind and the numbers of enumerations are integers. -/
inductive Value where
  | bool (b : Bool)
  | int (i : Int)
  | double (d : Double)
  /-- The 32 bits of a single-precision number. -/
  | single (bits : UInt32)
  | text (s : String)
  | bytes (bs : List UInt8)
  | message (fields : List (Nat × Content))

/-- What a field holds. -/
inductive Content where
  | one (v : Value)
  | many (vs : List Value)
  | map (entries : List (Key × Value))

end

instance : Inhabited Value := ⟨.bool false⟩

/-- The fields of a message that are set, by rising number. -/
abbrev Message := List (Nat × Content)

namespace Message

/-- What a field holds, if it is set. -/
def get? (number : Nat) : Message → Option Content
  | [] => none
  | (n, c) :: rest => if n = number then some c else get? number rest

/-- The message with a field set. -/
def set (number : Nat) (content : Content) : Message → Message
  | [] => [(number, content)]
  | (n, c) :: rest =>
    if n = number then (number, content) :: rest
    else if number < n then (number, content) :: (n, c) :: rest
    else (n, c) :: set number content rest

/-- The message without the fields of these numbers. -/
def without (numbers : List Nat) (m : Message) : Message :=
  m.filter fun (n, _) => !numbers.contains n

/-- The one value of a field. -/
def one? (number : Nat) (m : Message) : Option Value :=
  match get? number m with
  | some (.one v) => some v
  | _ => none

/-- The text of a field, empty if not set. -/
def text (number : Nat) (m : Message) : String :=
  match one? number m with
  | some (.text s) => s
  | _ => ""

/-- The whole number of a field, if it is set. -/
def int? (number : Nat) (m : Message) : Option Int :=
  match one? number m with
  | some (.int i) => some i
  | _ => none

/-- The whole number of a field, zero if not set. -/
def int (number : Nat) (m : Message) : Int := (int? number m).getD 0

/-- The truth value of a field, false if not set. -/
def bool (number : Nat) (m : Message) : Bool :=
  match one? number m with
  | some (.bool b) => b
  | _ => false

/-- The bytes of a field, empty if not set. -/
def bytes (number : Nat) (m : Message) : List UInt8 :=
  match one? number m with
  | some (.bytes bs) => bs
  | _ => []

/-- The message of a field, if it is set. -/
def nested? (number : Nat) (m : Message) : Option Message :=
  match one? number m with
  | some (.message fields) => some fields
  | _ => none

/-- The values of a field. -/
def many (number : Nat) (m : Message) : List Value :=
  match get? number m with
  | some (.many vs) => vs
  | _ => []

/-- The messages of a field. -/
def messages (number : Nat) (m : Message) : List Message :=
  (many number m).filterMap fun v =>
    match v with
    | .message fields => some fields
    | _ => none

/-- The texts of a field. -/
def texts (number : Nat) (m : Message) : List String :=
  (many number m).filterMap fun v =>
    match v with
    | .text s => some s
    | _ => none

/-- The entries of a field. -/
def entries (number : Nat) (m : Message) : List (Key × Value) :=
  match get? number m with
  | some (.map es) => es
  | _ => []

/-- The entries of a field whose keys are texts. -/
def byName (number : Nat) (m : Message) : List (String × Value) :=
  (entries number m).filterMap fun (k, v) =>
    match k with
    | .text name => some (name, v)
    | _ => none

/-! ## Making messages

Each makes the part of a message that one field is; what is zero, empty or missing is left out. -/

/-- A field of text. -/
def ofText (number : Nat) (s : String) : Message :=
  if s.isEmpty then [] else [(number, .one (.text s))]

/-- A field of a whole number. -/
def ofInt (number : Nat) (i : Int) : Message :=
  if i = 0 then [] else [(number, .one (.int i))]

/-- A field of a truth value. -/
def ofBool (number : Nat) (b : Bool) : Message :=
  if b then [(number, .one (.bool b))] else []

/-- A field of bytes. -/
def ofBytes (number : Nat) (bs : List UInt8) : Message :=
  if bs.isEmpty then [] else [(number, .one (.bytes bs))]

/-- A field of a message. -/
def ofNested (number : Nat) : Option Message → Message
  | none => []
  | some m => [(number, .one (.message m))]

/-- A field of many messages. -/
def ofMany (number : Nat) (ms : List Message) : Message :=
  if ms.isEmpty then [] else [(number, .many (ms.map .message))]

end Message

namespace Kind

/-- What a field of the kind holds when nothing is said. -/
def default : Kind → Value
  | .double => .double (.zero false)
  | .float => .single 0
  | .bool => .bool false
  | .string => .text ""
  | .bytes => .bytes []
  | .message _ => .message []
  | .group _ => .message []
  | _ => .int 0

end Kind

/-- Whether a value is a default: zero of either sign, false, or empty. -/
def Value.isDefault : Value → Bool
  | .bool b => !b
  | .int i => i == 0
  | .double d => d.bits == 0 || d.bits == 0x8000000000000000
  | .single bits => bits == 0 || bits == 0x80000000
  | .text s => s.isEmpty
  | .bytes bs => bs.isEmpty
  | .message fields => fields.isEmpty

end AuthGate.Proto
