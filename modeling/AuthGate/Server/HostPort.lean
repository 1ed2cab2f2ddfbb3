import AuthGate.Text.Blank
import AuthGate.Text.Digits

set_option autoImplicit false

/-! # Hosts and ports

An address of a machine and a port, both as numbers: four of them with points between, or in
brackets eight in base sixteen with colons between, where two colons stand for any zeros left out.
-/

namespace AuthGate

/-- An address and a port. -/
structure HostPort where
  /-- The address as it is written, with its brackets. -/
  host : String
  port : Nat
  deriving DecidableEq, Repr

namespace HostPort

/-- Whether a text is one of four numbers: below 256, and without zeros before it. -/
def isQuarter (cs : List Char) : Bool :=
  match Text.natInBase? 10 cs with
  | some n => n < 256 && (cs.length == 1 || cs.head? != some '0')
  | none => false

/-- Whether a text is an address of four numbers. -/
def isShort (cs : List Char) : Bool :=
  let parts := Text.splitAll '.' cs
  parts.length == 4 && parts.all isQuarter

/-- Whether a text is one of eight numbers. -/
def isGroup (cs : List Char) : Bool :=
  (Text.natInBase? 16 cs).isSome && cs.length ≤ 4

/-- How many numbers stand in a part of a long address; the last two of all may be written as a
    short address. -/
def groupCount? (isLast : Bool) (cs : List Char) : Option Nat :=
  if cs.isEmpty then some 0
  else
    let parts := Text.splitAll ':' cs
    if parts.all isGroup then some parts.length
    else if isLast && parts.dropLast.all isGroup && isShort (parts.getLastD []) then
      some (parts.length + 1)
    else none

/-- What stands before and after the first two colons that follow each other. -/
def splitGap : List Char → Option (List Char × List Char)
  | ':' :: ':' :: rest => some ([], rest)
  | c :: rest => (splitGap rest).map fun (before, after) => (c :: before, after)
  | [] => none

/-- Whether a text is an address of eight numbers. -/
def isLong (cs : List Char) : Bool :=
  match splitGap cs with
  | none => groupCount? true cs == some 8
  | some (before, after) =>
    match groupCount? false before, groupCount? true after with
    | some n, some m => n + m ≤ 7
    | _, _ => false

/-- Whether a text is an address in brackets, with the number of an interface after a percent sign
    or without. -/
def isBracketed (cs : List Char) : Bool :=
  match cs, cs.getLast? with
  | '[' :: rest, some ']' =>
    match Text.splitOnce '%' rest.dropLast with
    | none => isLong rest.dropLast
    | some (address, scope) =>
      match Text.natInBase? 10 scope with
      | some n => isLong address && n < 0x100000000
      | none => false
  | _, _ => false

/-- The address of a text. -/
def ofText? (text : String) : Option HostPort := do
  let back := text.toList.reverse
  let port := (back.takeWhile (· != ':')).reverse
  let host := (back.dropWhile (· != ':')).tail.reverse
  let n ← Text.natInBase? 10 port
  if n < 65536 && (isShort host || isBracketed host) then return ⟨String.ofList host, n⟩ else none

/-- The text of an address. -/
def render (a : HostPort) : String := s!"{a.host}:{a.port}"

end HostPort

end AuthGate
