import AuthGate.Text.Utf8
import AuthGate.Yaml.Token

set_option autoImplicit false

/-! # YAML nodes

The tree that a text's tokens describe. A reader takes tokens and gives what it read and the tokens
after it. Where a node may be left out, the empty plain scalar stands for it.

A text holds at most one document; one without any token but comments holds none. -/

namespace AuthGate.Yaml

/-- A node of a document. -/
inductive Node where
  | scalar (plain : Bool) (text : String)
  | sequence (items : List Node)
  | mapping (entries : List (Node × Node))
  deriving Inhabited

namespace Node

/-- What stands for a node that is left out. -/
def empty : Node := .scalar true ""

/-- A reader of something from tokens. -/
abbrev Reader (α : Type) := List Token → Option (α × List Token)

/-- A node, or the empty one if a token that cannot begin it comes first. -/
def orEmpty (stop : List Token) (node : Reader Node) : Reader Node
  | [] => node []
  | t :: ts => if stop.contains t then some (empty, t :: ts) else node (t :: ts)

/-! ## Block collections -/

/-- The items of a block sequence up to its end. -/
def blockItems (node : Reader Node) : Nat → Reader (List Node)
  | fuel + 1, .blockEntry :: ts => do
    let (item, ts) ← orEmpty [.blockEntry, .blockEnd] node ts
    let (items, ts) ← blockItems node fuel ts
    return (item :: items, ts)
  | _, .blockEnd :: ts => some ([], ts)
  | _, _ => none

/-- The items of a sequence that is indented no more than the mapping around it: it ends with the
    first token that is no entry. -/
def flushItems (node : Reader Node) : Nat → Reader (List Node)
  | fuel + 1, .blockEntry :: ts => do
    let (item, ts) ← orEmpty [.blockEntry, .key, .value, .blockEnd] node ts
    let (items, ts) ← flushItems node fuel ts
    return (item :: items, ts)
  | _, ts => some ([], ts)

/-- The value of a block mapping's entry. -/
def blockValue (node : Reader Node) : Reader Node
  | .value :: ts => orEmpty [.key, .value, .blockEnd] node ts
  | ts => some (empty, ts)

/-- The entries of a block mapping up to its end. -/
def blockEntries (node : Reader Node) : Nat → Reader (List (Node × Node))
  | fuel + 1, .key :: ts => do
    let (key, ts) ← orEmpty [.key, .value, .blockEnd] node ts
    let (value, ts) ← blockValue node ts
    let (entries, ts) ← blockEntries node fuel ts
    return ((key, value) :: entries, ts)
  | _, .blockEnd :: ts => some ([], ts)
  | _, _ => none

/-! ## Flow collections -/

/-- The mapping of one entry that an item `key: value` of a flow sequence is, after its key
    token. A key that is left out takes the token after it along. -/
def pair (node : Reader Node) (ts : List Token) : Option (Node × List Token) := do
  let (key, ts) ←
    match ts with
    | .value :: ts => some (empty, ts)
    | .flowEntry :: ts => some (empty, ts)
    | .flowSequenceEnd :: ts => some (empty, ts)
    | ts => node ts
  let (value, ts) ←
    match ts with
    | .value :: ts => orEmpty [.flowEntry, .flowSequenceEnd] node ts
    | ts => some (empty, ts)
  return (.mapping [(key, value)], ts)

/-- The items of a flow sequence up to its end. A comma stands before each but the first, and may
    stand before the end. -/
def flowItems (node : Reader Node) : Nat → Bool → Reader (List Node)
  | 0, _, _ => none
  | _ + 1, _, .flowSequenceEnd :: ts => some ([], ts)
  | fuel + 1, first, ts => do
    let ts ←
      match first, ts with
      | true, ts => some ts
      | false, .flowEntry :: ts => some ts
      | false, _ => none
    match ts with
    | .flowSequenceEnd :: ts => return ([], ts)
    | .key :: ts =>
      let (item, ts) ← pair node ts
      let (items, ts) ← flowItems node fuel false ts
      return (item :: items, ts)
    | ts =>
      let (item, ts) ← node ts
      let (items, ts) ← flowItems node fuel false ts
      return (item :: items, ts)

/-- The value of a flow mapping's entry. -/
def flowValue (node : Reader Node) : Reader Node
  | .value :: ts => orEmpty [.flowEntry, .flowMappingEnd] node ts
  | ts => some (empty, ts)

/-- The entries of a flow mapping up to its end. An item without a key token is a key whose value
    is left out. -/
def flowEntries (node : Reader Node) : Nat → Bool → Reader (List (Node × Node))
  | 0, _, _ => none
  | _ + 1, _, .flowMappingEnd :: ts => some ([], ts)
  | fuel + 1, first, ts => do
    let ts ←
      match first, ts with
      | true, ts => some ts
      | false, .flowEntry :: ts => some ts
      | false, _ => none
    match ts with
    | .flowMappingEnd :: ts => return ([], ts)
    | .key :: ts =>
      let (key, ts) ← orEmpty [.value, .flowEntry, .flowMappingEnd] node ts
      let (value, ts) ← flowValue node ts
      let (entries, ts) ← flowEntries node fuel false ts
      return ((key, value) :: entries, ts)
    | ts =>
      let (key, ts) ← node ts
      let (entries, ts) ← flowEntries node fuel false ts
      return ((key, empty) :: entries, ts)

/-! ## Nodes -/

/-- Where a node stands. -/
inductive Place where
  /-- In a flow collection. -/
  | flow
  /-- In a block sequence or at the top. -/
  | block
  /-- In a block mapping, where a sequence need not be indented. -/
  | entry
  deriving DecidableEq

/-- A node in which collections are nested at most `depth` deep. -/
def read : Nat → Place → Reader Node
  | 0, _, _ => none
  | depth + 1, place, ts =>
    let fuel := ts.length + 1
    match ts with
    | .scalar plain text :: ts => some (.scalar plain text, ts)
    | .flowSequenceStart :: ts => do
      let (items, ts) ← flowItems (read depth .flow) fuel true ts
      return (.sequence items, ts)
    | .flowMappingStart :: ts => do
      let (entries, ts) ← flowEntries (read depth .flow) fuel true ts
      return (.mapping entries, ts)
    | .blockSequence :: ts =>
      if place = .flow then none
      else do
        let (items, ts) ← blockItems (read depth .block) fuel ts
        return (.sequence items, ts)
    | .blockMapping :: ts =>
      if place = .flow then none
      else do
        let (entries, ts) ← blockEntries (read depth .entry) fuel ts
        return (.mapping entries, ts)
    | .blockEntry :: _ =>
      if place = .entry then do
        let (items, ts) ← flushItems (read depth .block) fuel ts
        return (.sequence items, ts)
      else none
    | _ => none

/-- The content of a document and the tokens after it. A document that is announced may be empty,
    and only the first one need not be announced. -/
def content (ts : List Token) : Option (Node × List Token) :=
  let node := read (ts.length + 1) .block
  match ts with
  | .documentStart :: ts =>
    match ts with
    | [] => some (empty, [])
    | ts => orEmpty [.documentStart, .documentEnd] node ts
  | ts => node ts

end Node

/-- The document of a text in UTF-8, `none` inside for a text without one. The result is none if
    the text is malformed or holds a second document. -/
def document? (bs : List UInt8) : Option (Option Node) := do
  let cs ← Text.Utf8.decode? bs
  if cs.all isAllowed then
    match ← tokens cs with
    | [] => return none
    | ts =>
      let (node, rest) ← Node.content ts
      if rest.all (· == .documentEnd) then return some node else none
  else none

end AuthGate.Yaml
