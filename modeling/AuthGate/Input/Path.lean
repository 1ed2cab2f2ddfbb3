import AuthGate.Failure
import AuthGate.Json.Basic
import AuthGate.Text.Percent

set_option autoImplicit false

/-! # Paths and parameters

The path of a request, up to the first `#` and then up to the first `?`, as segments, and the
parameters after the `?`, or in a form, as lists of values by name. -/

namespace AuthGate.Input

/-- The parts of a request's path: what names the resource, and the query. -/
structure Target where
  path : List Char
  query : List Char

/-- The text before a separator and the text after it, all and nothing if there is none. -/
def cut (sep : Char) (s : List Char) : List Char × List Char :=
  (Text.splitOnce sep s).getD (s, [])

/-- The parts of a request's path. -/
def Target.ofText (s : List Char) : Target :=
  let (path, query) := cut '?' (cut '#' s).1
  ⟨path, query⟩

/-- The segments of a path: percent-decoded, without the slashes it begins with. -/
def segments (path : List Char) : Except Failure (List String) :=
  match Text.Utf8.decode (Text.percentDecode (Text.Utf8.encode path)) with
  | .ok text => .ok ((Text.splitAll '/' (text.dropWhile (· == '/'))).map String.ofList)
  | .error fault => .error ⟨.inputConversion, s!"invalid request path: {fault.message}"⟩

/-- The values of each parameter in the order in which they come. -/
def parameters (bs : List UInt8) : List (String × List String) :=
  (Text.formPairs bs).foldl (fun byName (name, value) => Fields.append name value byName) []

/-- Parameters as a document. -/
def parametersJson (bs : List UInt8) : Json :=
  .object (Fields.mapValues Json.ofStrings (parameters bs))

end AuthGate.Input
