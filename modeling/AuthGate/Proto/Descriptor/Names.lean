import AuthGate.Fields
import AuthGate.Proto.Descriptor.Basic
import AuthGate.Proto.Reader
import AuthGate.Text.Blank

set_option autoImplicit false

/-! # Names in descriptor sets

The files of a set declare names inside scopes. All names are gathered into one list, and a name that
is used is looked up there: from the innermost scope outwards, or as it stands if it begins with a
dot. A file sees its own names and those of the files it imports. -/

namespace AuthGate.Proto.DescriptorSet

/-- What a full name stands for. -/
inductive Definition where
  | package
  | message
  | enumeration
  | service
  | other
  deriving DecidableEq

/-- A declaration inside a scope. -/
structure Declared where
  scope : String
  name : String
  body : Message

/-- A name inside a scope. -/
def joined (scope name : String) : String := if scope.isEmpty then name else scope ++ "." ++ name

/-- Declarations of one scope. -/
def declared (scope : String) (bodies : List Message) : List Declared :=
  bodies.map fun body => ⟨scope, joined scope (body.text 1), body⟩

/-- Declarations of messages and of all messages inside them. -/
def withNested : Nat → List Declared → List Declared
  | 0, ds => ds
  | depth + 1, ds =>
    ds.flatMap fun d => d :: withNested depth (declared d.name (d.body.messages 3))

/-- A file of the set. -/
structure File where
  name : String
  package : String
  /-- Whether fields of one scalar have no presence of their own. -/
  implicit : Bool
  imports : List String
  /-- Positions in `imports` of those that whoever imports this file imports too. -/
  passedOn : List Int
  /-- Positions in `imports` of those that may be missing where they are used. -/
  weak : List Int
  messages : List Declared
  enumerations : List Declared
  services : List Declared
  /-- Fields that messages elsewhere are extended with. -/
  extensions : List Declared

/-- The whole numbers of a field. -/
def numbers (number : Nat) (m : Message) : List Int :=
  (m.many number).filterMap fun v =>
    match v with
    | .int i => some i
    | _ => none

/-- A file as its message says. -/
def File.ofMessage (m : Message) : Except DescriptorFault File := do
  let implicit ←
    match m.text 12 with
    | "" => .ok false
    | "proto2" => .ok false
    | "proto3" => .ok true
    | _ => .error (.unknownForm (m.text 1))
  let package := m.text 2
  let messages := withNested maxDepth (declared package (m.messages 4))
  return {
    name := m.text 1, package, implicit, imports := m.texts 3, passedOn := numbers 10 m,
    weak := numbers 11 m, messages,
    enumerations := declared package (m.messages 5) ++
      messages.flatMap fun d => declared d.name (d.body.messages 4),
    services := declared package (m.messages 6),
    extensions := declared package (m.messages 7) ++
      messages.flatMap fun d => declared d.name (d.body.messages 6) }

/-- The scopes that a dotted name lies in and the name itself, outermost first. -/
def prefixes (name : String) : List String :=
  if name.isEmpty then []
  else
    ((Text.splitAll '.' name.toList).foldl
      (fun acc part =>
        joined (acc.head?.getD "") (String.ofList part) :: acc)
      ([] : List String)).reverse

/-- The names that a file defines besides packages. -/
def File.definitions (f : File) : List (String × Definition) :=
  (f.messages.flatMap fun d =>
    (d.name, .message) ::
      ((d.body.messages 2 ++ d.body.messages 8).map fun m =>
        (joined d.name (m.text 1), .other))) ++
  (f.enumerations.flatMap fun d =>
    (d.name, .enumeration) ::
      (d.body.messages 2).map fun m => (joined d.scope (m.text 1), .other)) ++
  (f.services.flatMap fun d =>
    (d.name, .service) :: (d.body.messages 2).map fun m => (joined d.name (m.text 1), .other)) ++
  f.extensions.map fun d => (d.name, .other)

/-- The names known to a set, each with the file it is from. -/
abbrev Names := List (String × Definition × String)

/-- Names added to those known; a package may be named again, all else only once. -/
def addNames (file : String) (new : List (String × Definition)) (known : Names) :
    Except DescriptorFault Names :=
  new.foldlM (fun known (name, d) =>
    match Fields.get? name known with
    | none => .ok ((name, d, file) :: known)
    | some (.package, _) => if d = .package then .ok known else .error (.duplicateName name)
    | some _ => .error (.duplicateName name)) known

/-- The names of all files. -/
def namesOf (files : List File) : Except DescriptorFault Names :=
  files.foldlM (fun known f => do
    let known ← addNames f.name ((prefixes f.package).map fun p => (p, .package)) known
    addNames f.name f.definitions known) []

/-- The files whose names a file sees: itself, what it imports, and what that passes on. -/
def visible (files : List File) : Nat → File → List String
  | 0, f => [f.name]
  | depth + 1, f =>
    f.name :: f.imports.flatMap fun name =>
      match files.find? (·.name == name) with
      | some g => name :: passed depth g
      | none => []
where
  /-- The files that a file passes on. -/
  passed : Nat → File → List String
    | 0, _ => []
    | depth + 1, g =>
      g.passedOn.flatMap fun i =>
        match g.imports[i.toNat]? with
        | some name =>
          match files.find? (·.name == name) with
          | some h => name :: passed depth h
          | none => []
        | none => []

/-- A scope and those around it, innermost first, the last one the root. -/
def scopes (scope : String) : List String := (prefixes scope).reverse ++ [""]

/-- The type of a name used in a scope. -/
def resolve (names : Names) (seen : List String) (scope name : String) :
    Except DescriptorFault (String × Definition) :=
  let find (full : String) : Option (String × Definition) :=
    match Fields.get? full names with
    | some (d, file) =>
      if (d = .message || d = .enumeration) && seen.contains file then some (full, d) else none
    | none => none
  let found :=
    match Text.dropStart? ['.'] name.toList with
    | some full => find (String.ofList full)
    | none => (scopes scope).findSome? fun s => find (joined s name)
  match found with
  | some r => .ok r
  | none => .error (.unknownType scope name)

end AuthGate.Proto.DescriptorSet
