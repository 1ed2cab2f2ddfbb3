import AuthGate.Rego.Basic
import AuthGate.Rego.Token

set_option autoImplicit false

/-! # Reading Rego

A module is read token by token; each reader takes tokens and gives what it read and the rest. Terms
may be nested as deep as there are tokens. -/

namespace AuthGate.Rego

/-- A reader of tokens. -/
abbrev Reader (α : Type) := List Lexeme → Option (α × List Lexeme)

/-- Tokens after a sign. -/
def sign (s : String) (ls : List Lexeme) : Option (List Lexeme) :=
  match ls with
  | ⟨_, .sign t⟩ :: rest => if t = s then some rest else none
  | _ => none

/-- Tokens after a word. -/
def word (s : String) (ls : List Lexeme) : Option (List Lexeme) :=
  match ls with
  | ⟨_, .word t⟩ :: rest => if t = s then some rest else none
  | _ => none

/-- A name, which is no reserved word. -/
def name (reserved : List String) : Reader String
  | ⟨_, .word s⟩ :: rest => if reserved.contains s then none else some (s, rest)
  | _ => none

/-! ## Terms -/

/-- Items between commas up to a closing sign; a comma may follow the last. -/
def listed {α : Type} (item : Reader α) (closing : String) : Nat → Reader (List α)
  | 0, _ => none
  | fuel + 1, ls =>
    match sign closing ls with
    | some rest => some ([], rest)
    | none => do
      let (a, rest) ← item ls
      match sign "," rest with
      | some rest =>
        let (as, rest) ← listed item closing fuel rest
        return (a :: as, rest)
      | none =>
        let rest ← sign closing rest
        return ([a], rest)

/-- Items between commas up to a closing sign; a comma alone is no list. -/
def list {α : Type} (item : Reader α) (closing : String) (ls : List Lexeme) :
    Option (List α × List Lexeme) :=
  listed item closing (ls.length + 1) ls

/-- A field of an object. -/
def field (term : Reader Term) (ls : List Lexeme) : Option ((Term × Term) × List Lexeme) := do
  let (k, rest) ← term ls
  let rest ← sign ":" rest
  let (v, rest) ← term rest
  return ((k, v), rest)

/-- The steps of a reference, each following what is before it at once. -/
def steps (reserved : List String) (term : Reader Term) : Nat → Reader (List Term)
  | 0, ls => some ([], ls)
  | fuel + 1, ls =>
    match ls with
    | ⟨.none, .sign "."⟩ :: rest =>
      match rest with
      | ⟨.none, _⟩ :: _ => do
        let (key, rest) ← name reserved rest
        let (more, rest) ← steps reserved term fuel rest
        return (.value (.string key) :: more, rest)
      | _ => none
    | ⟨.none, .sign "["⟩ :: rest => do
      let (index, rest) ← term rest
      let rest ← sign "]" rest
      let (more, rest) ← steps reserved term fuel rest
      return (index :: more, rest)
    | _ => some ([], ls)

/-- The keys that steps begin with, and the steps after them. -/
def splitKeys : List Term → List String × List Term
  | .value (.string key) :: ts =>
    let (keys, more) := splitKeys ts
    (key :: keys, more)
  | ts => ([], ts)

/-- A reference. -/
def reference (reserved : List String) (term : Reader Term) (ls : List Lexeme) :
    Option (Term × List Lexeme) := do
  let (root, rest) ← name reserved ls
  let (ts, rest) ← steps reserved term rest.length rest
  let (keys, more) := splitKeys ts
  return (.ref root keys more, rest)

/-- The negative of a number. -/
def negative (n : Number) : Number :=
  match n.toInt? with
  | some i => .ofInt (-i)
  | none => .double n.toDouble.negate

/-- A term in which others are nested at most `depth` deep. -/
def term (reserved : List String) : Nat → Reader Term
  | 0, _ => none
  | depth + 1, ls =>
    match ls with
    | ⟨_, .word "null"⟩ :: rest => some (.value .null, rest)
    | ⟨_, .word "true"⟩ :: rest => some (.value (.bool true), rest)
    | ⟨_, .word "false"⟩ :: rest => some (.value (.bool false), rest)
    | ⟨_, .text s⟩ :: rest => some (.value (.string s), rest)
    | ⟨_, .number n⟩ :: rest => some (.value (.number n), rest)
    | ⟨_, .sign "-"⟩ :: ⟨_, .number n⟩ :: rest => some (.value (.number (negative n)), rest)
    | ⟨_, .sign "["⟩ :: rest => do
      let (items, rest) ← list (term reserved depth) "]" rest
      return (.array items, rest)
    | ⟨_, .sign "\x7b"⟩ :: rest => do
      let (fields, rest) ← list (field (term reserved depth)) "\x7d" rest
      return (.object fields, rest)
    | ls => reference reserved (term reserved depth) ls

/-! ## Bodies -/

/-- What a module's words mean. -/
structure Dialect where
  /-- Whether the module asked for the current language, in which `if` stands before a body. -/
  current : Bool

namespace Dialect

/-- The words that are no names. -/
def reserved (d : Dialect) : List String :=
  if d.current then keywords ++ currentKeywords else keywords

/-- A term. -/
def term (d : Dialect) (ls : List Lexeme) : Option (Term × List Lexeme) :=
  Rego.term d.reserved (ls.length + 1) ls

/-- The signs between two terms, with what they say. -/
def relations : List (Token × (Term → Term → Assertion)) :=
  [(.sign "==", .equal), (.sign "!=", .differ)]

/-- What a token says between two terms. -/
def relation? (d : Dialect) (t : Token) : Option (Term → Term → Assertion) :=
  if d.current && t = .word "in" then some .member
  else (relations.find? (·.1 = t)).map (·.2)

/-- A statement without negation. -/
def assertion (d : Dialect) (ls : List Lexeme) : Option (Assertion × List Lexeme) := do
  let (a, rest) ← d.term ls
  match rest with
  | l :: after =>
    match d.relation? l.token with
    | some make =>
      let (b, rest) ← d.term after
      return (make a b, rest)
    | none => return (.holds a, rest)
  | [] => return (.holds a, rest)

/-- A statement. -/
def condition (d : Dialect) (ls : List Lexeme) : Option (Condition × List Lexeme) := do
  match word "not" ls with
  | some rest =>
    let (c, rest) ← d.assertion rest
    return (⟨true, c⟩, rest)
  | none =>
    let (c, rest) ← d.assertion ls
    return (⟨false, c⟩, rest)

/-- Statements up to a closing brace, each on a line of its own or after a semicolon. -/
def conditions (d : Dialect) : Nat → Reader (List Condition)
  | 0, _ => none
  | fuel + 1, ls => do
    let (c, rest) ← d.condition ls
    match rest with
    | ⟨_, .sign "\x7d"⟩ :: rest => return ([c], rest)
    | ⟨_, .sign ";"⟩ :: rest =>
      let (cs, rest) ← conditions d fuel rest
      return (c :: cs, rest)
    | ⟨.newline, _⟩ :: _ =>
      let (cs, rest) ← conditions d fuel rest
      return (c :: cs, rest)
    | _ => none

/-- A body: statements between braces, or one statement. -/
def body (d : Dialect) (ls : List Lexeme) : Option (List Condition × List Lexeme) :=
  let braced := (sign "\x7b" ls).bind fun rest => d.conditions (rest.length + 1) rest
  match braced with
  | some r => some r
  | none => do
    let (c, rest) ← d.condition ls
    return ([c], rest)

/-! ## Modules -/

/-- A value after the sign of a definition, if there is one. -/
def defined (d : Dialect) (ls : List Lexeme) : Option (Option Term × List Lexeme) :=
  match (sign ":=" ls).or (sign "=" ls) with
  | some rest => do
    let (t, rest) ← d.term rest
    return (some t, rest)
  | none => some (none, ls)

/-- The body of a rule, if there is one. -/
def ruleBody (d : Dialect) (ls : List Lexeme) : Option (Option (List Condition) × List Lexeme) :=
  if d.current then
    match word "if" ls with
    | some rest => do
      let (cs, rest) ← d.body rest
      return (some cs, rest)
    | none => some (none, ls)
  else
    match sign "\x7b" ls with
    | some rest => do
      let (cs, rest) ← d.conditions (rest.length + 1) rest
      return (some cs, rest)
    | none => some (none, ls)

/-- A rule, which has a value or a body; without a value it is true. -/
def rule (d : Dialect) (ls : List Lexeme) : Option (Rule × List Lexeme) := do
  let (name, rest) ← name d.reserved ls
  let (value, rest) ← d.defined rest
  let (body, rest) ← d.ruleBody rest
  match value, body with
  | none, none => none
  | value, body => return (⟨name, value.getD (.value (.bool true)), body.getD []⟩, rest)

/-- A default after its word. -/
def defaultValue (d : Dialect) (ls : List Lexeme) : Option ((String × Term) × List Lexeme) := do
  let (name, rest) ← name d.reserved ls
  let (value, rest) ← d.defined rest
  return ((name, ← value), rest)

/-- The rules and defaults up to the end. -/
def definitions (d : Dialect) : Nat → List Lexeme → Option (List Rule × List (String × Term))
  | _, [] => some ([], [])
  | 0, _ => none
  | fuel + 1, ls =>
    match word "default" ls with
    | some rest => do
      let (v, rest) ← d.defaultValue rest
      let (rules, defaults) ← definitions d fuel rest
      return (rules, v :: defaults)
    | none => do
      let (r, rest) ← d.rule ls
      let (rules, defaults) ← definitions d fuel rest
      return (r :: rules, defaults)

end Dialect

/-- A path of names, or of texts in brackets. -/
def path (ls : List Lexeme) : Option (List String × List Lexeme) := do
  let (t, rest) ← reference keywords (term keywords 1) ls
  match t with
  | .ref root keys [] => return (root :: keys, rest)
  | _ => none

/-- The imports that ask for the current language. -/
def currentImports : List (List String) :=
  [["rego", "v1"], ["future", "keywords"]]

/-- The imports of a module: whether one asks for the current language, and the rest. -/
def imports : Nat → Reader Dialect
  | 0, _ => none
  | fuel + 1, ls =>
    match word "import" ls with
    | some rest => do
      let (p, rest) ← path rest
      if currentImports.contains p then
        let (_, rest) ← imports fuel rest
        return (⟨true⟩, rest)
      else none
    | none => some (⟨false⟩, ls)

/-- The module of a text. -/
def Module.ofText? (text : String) : Option Module := do
  let ls ← lexemes? text.toList
  let rest ← word "package" ls
  let (package, rest) ← path rest
  let (dialect, rest) ← imports (rest.length + 1) rest
  let (rules, defaults) ← dialect.definitions rest.length rest
  return ⟨package, rules, defaults⟩

end AuthGate.Rego
