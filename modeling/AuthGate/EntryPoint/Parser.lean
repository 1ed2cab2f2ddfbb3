import AuthGate.EntryPoint.Basic
import AuthGate.Failure
import AuthGate.Json.Parser
import AuthGate.Text.Quoted
import AuthGate.Text.Utf8

set_option autoImplicit false

/-! # Reading queries

A query is `data` followed by segments, each `.identifier`, `["key"]` or `[index]`; in brackets
blanks may stand around the key or index. The reader takes what is left of the query and gives what
is left after it. A fault carries what was left when it was found, and the offset that a message
names is the length in bytes of what is not left. -/

namespace AuthGate

/-- Why a text is no query. -/
inductive QueryFault where
  | noIdentifier
  | otherRoot (found : String)
  | unexpected (c : Char)
  | openKey
  | openBracket
  | badKey
  | badIndex (found : String)
  deriving DecidableEq, Repr

/-- The wording of a fault. -/
def QueryFault.message : QueryFault → String
  | .noIdentifier => "expected identifier"
  | .otherRoot found =>
    s!"query must be a reference into {EntryPoint.root}, found {Text.quoted found}"
  | .unexpected c => s!"unexpected {Text.quotedOne c}"
  | .openKey => "unterminated string key"
  | .openBracket => "unterminated '['"
  | .badKey => "invalid string key: not a string literal"
  | .badIndex found => s!"invalid index {Text.quoted found}"

/-- A fault and what was left of the query when it was found. -/
structure QueryError where
  fault : QueryFault
  left : List Char
  deriving DecidableEq, Repr

namespace EntryPoint

/-- An identifier at the front. -/
def identifier (cs : List Char) : Except QueryError (List Char × List Char) :=
  match cs with
  | c :: rest =>
    if isInitial c then .ok (c :: rest.takeWhile isMedial, rest.dropWhile isMedial)
    else .error ⟨.noIdentifier, cs⟩
  | [] => .error ⟨.noIdentifier, cs⟩

/-- The text up to the first `]` and what follows it. -/
def upToBracket (cs : List Char) : Option (List Char × List Char) := Text.splitOnce ']' cs

/-- What stands in brackets, after the opening one: a key if the first character that is no blank
    is a quote. The search for the closing bracket begins after the quote that closes the key. -/
def bracketed (cs : List Char) : Except QueryError (RefTerm × List Char) :=
  match Text.trimLeft cs with
  | '"' :: body =>
    match Json.Literal.afterQuote? body with
    | none => .error ⟨.openKey, cs⟩
    | some tail =>
      match upToBracket tail with
      | none => .error ⟨.openBracket, cs⟩
      | some (extra, rest) =>
        let literal := '"' :: body.take (body.length - tail.length)
        match Json.literal? (Text.trimRight (literal ++ extra)) with
        | some key => .ok (.key (String.ofList key), rest)
        | none => .error ⟨.badKey, rest⟩
  | _ =>
    match upToBracket cs with
    | none => .error ⟨.openBracket, cs⟩
    | some (inner, rest) =>
      match Text.int64? (Text.trim inner) with
      | some i => .ok (.index i, rest)
      | none => .error ⟨.badIndex (String.ofList (Text.trim inner)), rest⟩

/-- One segment. -/
def segment : List Char → Except QueryError (RefTerm × List Char)
  | '.' :: cs => do
    let (name, rest) ← identifier cs
    return (.key (String.ofList name), rest)
  | '[' :: cs => bracketed cs
  | c :: cs => .error ⟨.unexpected c, c :: cs⟩
  | [] => .error ⟨.noIdentifier, []⟩

/-- Segments up to the end; each takes at least one character, so as much fuel as there are
    characters is enough. -/
def segments : Nat → List Char → Except QueryError (List RefTerm)
  | _, [] => .ok []
  | 0, cs => .error ⟨.noIdentifier, cs⟩
  | fuel + 1, cs => do
    let (term, rest) ← segment cs
    let terms ← segments fuel rest
    return term :: terms

/-- The entry point of a query without blanks around it. -/
def ofChars (cs : List Char) : Except QueryError EntryPoint := do
  let (head, rest) ← identifier cs
  if head = root.toList then
    let terms ← segments rest.length rest
    return ⟨terms⟩
  else .error ⟨.otherRoot (String.ofList head), rest⟩

/-- The offset in bytes at which a fault was found in a text. -/
def QueryError.offset (source : List Char) (e : QueryError) : Nat :=
  Text.Utf8.width source - Text.Utf8.width e.left

/-- The failure of a query. -/
def QueryError.toFailure (source : List Char) (e : QueryError) : Failure :=
  ⟨.config, s!"failed to parse query {Text.quoted (String.ofList source)} at offset " ++
    s!"{QueryError.offset source e}: {e.fault.message}"⟩

/-- The entry point of a query, blanks around it allowed. -/
def parse (query : String) : Except Failure EntryPoint :=
  let source := Text.trim query.toList
  (ofChars source).mapError (QueryError.toFailure source)

end EntryPoint

end AuthGate
