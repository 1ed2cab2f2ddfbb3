import AuthGate.Json.Literal
import AuthGate.Text.Blank
import AuthGate.Text.Digits

set_option autoImplicit false

/-! # Entry points

The entry point is the document whose value is the decision: a reference into the root document
`data`, element by element. It can be given as a path such as `envoy/authz/allow`, and it is
written as a query such as `data.envoy.authz.allow`. -/

namespace AuthGate

/-- One element of a reference. -/
inductive RefTerm where
  /-- The key of an object. -/
  | key (name : String)
  /-- The index of an array. -/
  | index (i : Int)
  deriving DecidableEq, Repr

/-- A reference into the root document. -/
structure EntryPoint where
  terms : List RefTerm
  deriving DecidableEq, Repr

namespace EntryPoint

/-- The root document. -/
def root : String := "data"

/-- A character that an identifier may begin with. -/
def isInitial (c : Char) : Bool := ('a' ≤ c && c ≤ 'z') || ('A' ≤ c && c ≤ 'Z') || c == '_'

/-- A character that an identifier may go on with. -/
def isMedial (c : Char) : Bool := isInitial c || Text.isDigit c

/-- A letter or underscore, then letters, digits and underscores, all of them ASCII. -/
def isIdentifier : List Char → Bool
  | [] => false
  | c :: cs => isInitial c && cs.all isMedial

/-- The element that a segment of a path names: an index if it is a 64-bit whole number. -/
def termOfSegment (segment : List Char) : RefTerm :=
  match Text.int64? segment with
  | some i => .index i
  | none => .key (String.ofList segment)

/-- The reference of a path: its segments between slashes, empty ones left out. -/
def ofPath (path : String) : EntryPoint :=
  ⟨((Text.splitAll '/' path.toList).filter (!·.isEmpty)).map termOfSegment⟩

/-! ## Writing -/

/-- An element as it follows the rest of a query: dotted if it is an identifier, else in
    brackets, a key as a JSON literal. -/
def termChars : RefTerm → List Char
  | .key name =>
    if isIdentifier name.toList then '.' :: name.toList
    else '[' :: (Json.Literal.encode name.toList ++ [']'])
  | .index i => '[' :: (Text.ofInt i ++ [']'])

/-- The query of an entry point. -/
def chars (e : EntryPoint) : List Char := root.toList ++ e.terms.flatMap termChars

/-- The query of an entry point. -/
def render (e : EntryPoint) : String := String.ofList e.chars

end EntryPoint

end AuthGate
