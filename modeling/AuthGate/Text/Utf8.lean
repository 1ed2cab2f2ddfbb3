set_option autoImplicit false

/-! # UTF-8

Characters as bytes and back. Reading goes byte by byte: either no character is under way, or
one is, and then it is known how many bytes are missing and in which range the next must lie.
A byte outside that range ends the sequence before it; the fault names where the sequence began
and how many of its bytes were good. -/

namespace AuthGate.Text.Utf8

/-! ## Writing -/

/-- The bytes of one character. -/
def encodeChar (c : Char) : List UInt8 :=
  let n := c.toNat
  if n < 0x80 then [n.toUInt8]
  else if n < 0x800 then [(0xC0 + n / 64).toUInt8, (0x80 + n % 64).toUInt8]
  else if n < 0x10000 then
    [(0xE0 + n / 4096).toUInt8, (0x80 + n / 64 % 64).toUInt8, (0x80 + n % 64).toUInt8]
  else
    [(0xF0 + n / 262144).toUInt8, (0x80 + n / 4096 % 64).toUInt8, (0x80 + n / 64 % 64).toUInt8,
      (0x80 + n % 64).toUInt8]

/-- The bytes of a text. -/
def encode (s : List Char) : List UInt8 := s.flatMap encodeChar

/-- The number of bytes of a text. -/
def width : List Char → Nat
  | [] => 0
  | c :: cs => c.utf8Size + width cs

/-! ## Reading -/

/-- A character that has begun: bytes missing (at least one), the range of the next one, the
    bits so far and the number of bytes so far. -/
structure Begun where
  missing : Nat
  low : UInt8
  high : UInt8
  value : Nat
  seen : Nat
  deriving DecidableEq, Repr

/-- What a byte makes of the state before it. -/
inductive Step where
  /-- The byte completes a character. -/
  | complete (c : Char)
  /-- More bytes have to come. -/
  | more (b : Begun)
  /-- The byte cannot stand here. -/
  | bad

/-- A byte where a character begins. -/
def start (b : UInt8) : Step :=
  if b < 0x80 then .complete (Char.ofNat b.toNat)
  else if b < 0xC2 then .bad
  else if b < 0xE0 then .more ⟨1, 0x80, 0xBF, b.toNat - 0xC0, 1⟩
  else if b < 0xF0 then
    .more ⟨2, if b = 0xE0 then 0xA0 else 0x80, if b = 0xED then 0x9F else 0xBF,
      b.toNat - 0xE0, 1⟩
  else if b < 0xF5 then
    .more ⟨3, if b = 0xF0 then 0x90 else 0x80, if b = 0xF4 then 0x8F else 0xBF,
      b.toNat - 0xF0, 1⟩
  else .bad

/-- A byte inside a character. -/
def Begun.next (s : Begun) (b : UInt8) : Step :=
  if s.low ≤ b && b ≤ s.high then
    let value := s.value * 64 + (b.toNat - 0x80)
    if s.missing ≤ 1 then .complete (Char.ofNat value)
    else .more ⟨s.missing - 1, 0x80, 0xBF, value, s.seen + 1⟩
  else .bad

/-- Where bytes stop being UTF-8: the index at which the faulty sequence begins, and its length,
    or none if the bytes merely end too early. -/
structure Fault where
  index : Nat
  length : Option Nat
  deriving DecidableEq, Repr

/-- The wording of a fault. -/
def Fault.message (f : Fault) : String :=
  match f.length with
  | some n => s!"invalid utf-8 sequence of {n} bytes from index {f.index}"
  | none => s!"incomplete utf-8 byte sequence from index {f.index}"

/-- Reading on from index `i`; `s` is the character under way, which began before `i`. -/
def decodeFrom (i : Nat) (s : Option Begun) : List UInt8 → Except Fault (List Char)
  | [] =>
    match s with
    | none => .ok []
    | some s => .error ⟨i - s.seen, none⟩
  | b :: bs =>
    match s with
    | none =>
      match start b with
      | .complete c => (decodeFrom (i + 1) none bs).map (c :: ·)
      | .more s => decodeFrom (i + 1) (some s) bs
      | .bad => .error ⟨i, some 1⟩
    | some s =>
      match s.next b with
      | .complete c => (decodeFrom (i + 1) none bs).map (c :: ·)
      | .more s => decodeFrom (i + 1) (some s) bs
      | .bad => .error ⟨i - s.seen, some s.seen⟩

/-- The text of the bytes, or the first fault in them. -/
def decode (bs : List UInt8) : Except Fault (List Char) := decodeFrom 0 none bs

/-- The text of the bytes, if they are UTF-8. -/
def decode? (bs : List UInt8) : Option (List Char) := (decode bs).toOption

/-- What stands for a faulty sequence when faults are not reported. -/
def replacement : Char := Char.ofNat 0xFFFD

/-- Reading on where every faulty sequence becomes one replacement character. -/
def decodeLossyFrom (s : Option Begun) : List UInt8 → List Char
  | [] => if s.isSome then [replacement] else []
  | b :: bs =>
    let fresh :=
      match start b with
      | .complete c => c :: decodeLossyFrom none bs
      | .more s => decodeLossyFrom (some s) bs
      | .bad => replacement :: decodeLossyFrom none bs
    match s with
    | none => fresh
    | some s =>
      match s.next b with
      | .complete c => c :: decodeLossyFrom none bs
      | .more s => decodeLossyFrom (some s) bs
      | .bad => replacement :: fresh

/-- The text of the bytes, faulty sequences replaced. -/
def decodeLossy (bs : List UInt8) : List Char := decodeLossyFrom none bs

end AuthGate.Text.Utf8
