import AuthGate.EntryPoint.Basic
import AuthGate.Rego.Basic
import AuthGate.Rego.Value

set_option autoImplicit false

/-! # Programs

Modules together make a program: names of one package in several modules are the same names. The
value of a reference into the data is what the data holds there, with the values of the names that
lie along the reference or below it put in.

Rules may refer to names whose rules refer to others. The value of a reference goes that many names
deep and no deeper than there are names; beyond that a name would depend on itself. -/

namespace AuthGate.Rego

/-- Why a program has no value for a reference. -/
inductive Fault where
  /-- A default that is no constant. -/
  | variableDefault (name : String)
  /-- A name that nothing gives a value to. -/
  | unknownName (name : String)
  /-- A query with a word in it that is no name. -/
  | reservedWord (word : String)
  /-- A name with two values. -/
  | manyValues (name : String)
  /-- A name whose value depends on itself. -/
  | cycle
  /-- A name that the data has a value for as well. -/
  | givenByData (name : String)
  /-- A path through a value that is no object. -/
  | notObject
  /-- Data that is no object. -/
  | dataNotObject
  deriving DecidableEq, Repr

/-- The wording of a fault. -/
def Fault.message : Fault → String
  | .variableDefault name => s!"the default of {name} is no constant"
  | .unknownName name => s!"{name} is not known"
  | .reservedWord word => s!"{word} is a reserved word"
  | .manyValues name => s!"{name} has several values"
  | .cycle => "a name depends on itself"
  | .givenByData name => s!"the data has a value for {name}"
  | .notObject => "a path leads through a value that is no object"
  | .dataNotObject => "the data must be an object"

/-- A value, if it is defined. -/
abbrev Result := Except Fault (Option Json)

/-! ## Terms and bodies

What a reference begins with is given by `find`: the value of a root and the keys after it. -/

section Terms

variable (find : String → List String → Result)

mutual

/-- The value of a term. It is not defined if a part of it is not. -/
def Term.eval : Term → Result
  | .value v => .ok (some (plain v))
  | .array items => do return (← evalItems items).map .array
  | .object fields => do return (← evalFields fields).map .ofFields
  | .ref root keys steps => do evalSteps (← find root keys) steps

/-- The values of items. -/
def evalItems : List Term → Except Fault (Option (List Json))
  | [] => .ok (some [])
  | t :: ts => do
    match ← t.eval with
    | none => return none
    | some v => return (← evalItems ts).map (v :: ·)

/-- The values of fields. -/
def evalFields : List (Term × Term) → Except Fault (Option (List (String × Json)))
  | [] => .ok (some [])
  | (k, v) :: rest => do
    match ← k.eval with
    | some (.string key) =>
      match ← v.eval with
      | none => return none
      | some value => return (← evalFields rest).map ((key, value) :: ·)
    | _ => return none

/-- What stands at the end of steps from a value. -/
def evalSteps (v : Option Json) : List Term → Result
  | [] => .ok v
  | t :: ts => do
    let step ← t.eval
    evalSteps (v.bind fun v => step.bind (index v)) ts

end

/-- Whether two terms are defined and related. -/
def related (r : Json → Json → Bool) (a b : Term) : Except Fault Bool := do
  let a ← a.eval find
  let b ← b.eval find
  match a, b with
  | some a, some b => return r a b
  | _, _ => return false

/-- Whether a statement holds. A term holds if it is defined and not false. -/
def Assertion.eval : Assertion → Except Fault Bool
  | .holds t => do
    match ← t.eval find with
    | some (.bool b) => return b
    | some _ => return true
    | none => return false
  | .equal a b => related find same a b
  | .differ a b => related find (fun a b => !same a b) a b
  | .member a b => related find isIn a b

/-- Whether a statement holds, negated or not. -/
def Condition.eval (c : Condition) : Except Fault Bool := do
  return (← c.assertion.eval find) != c.negated

/-- Whether all statements hold. -/
def bodyHolds : List Condition → Except Fault Bool
  | [] => .ok true
  | c :: cs => do if ← c.eval find then bodyHolds cs else return false

/-- The value that rules of one name agree on. -/
def rulesValue (name : String) : Option Json → List Rule → Result
  | agreed, [] => .ok agreed
  | agreed, r :: rs => do
    if ← bodyHolds find r.body then
      match agreed, ← r.value.eval find with
      | some a, some v =>
        if same a v then rulesValue name agreed rs else .error (.manyValues name)
      | none, v => rulesValue name v rs
      | agreed, none => rulesValue name agreed rs
    else rulesValue name agreed rs

end Terms

/-! ## Names -/

/-- A program. -/
structure Program where
  modules : List Module

namespace Program

/-- The modules of a package. -/
def inPackage (p : Program) (package : List String) : List Module :=
  p.modules.filter (·.package == package)

/-- The names of a module. -/
def namesOf (m : Module) : List String := m.rules.map (·.name) ++ m.defaults.map (·.1)

/-- The packages with the names in them, each once. -/
def names (p : Program) : List (List String × String) :=
  (p.modules.flatMap fun m => (namesOf m).map (m.package, ·)).eraseDups

/-- The value of a name by its rules, and by its defaults if no rule holds. -/
inductive Given where
  | byRule (v : Json)
  | byDefault (v : Json)
  | undefined

/-- The value of a name. -/
def valueOf (p : Program) (find : String → List String → Result) (package : List String)
    (name : String) : Except Fault Given := do
  let modules := p.inPackage package
  let rules := modules.flatMap fun m => m.rules.filter (·.name == name)
  match ← rulesValue find name none rules with
  | some v => return .byRule v
  | none =>
    match (modules.flatMap (·.defaults)).find? (·.1 == name) with
    | some (_, t) =>
      match ← t.eval find with
      | some v => return .byDefault v
      | none => return .undefined
    | none => return .undefined

/-! ## Data -/

/-- A document with a value at a path; objects along the path are made where there is nothing. -/
def putAt (value : Json) : List String → Option Json → Except Fault Json
  | [], _ => .ok value
  | key :: path, none => do return .object [(key, ← putAt value path none)]
  | key :: path, some (.object fields) => do
    return .object (Fields.insert key (← putAt value path (Fields.get? key fields)) fields)
  | _ :: _, some _ => .error .notObject

/-- The data with an object for every package that it has nothing for. -/
def withPackages (p : Program) (data : Json) : Except Fault Json :=
  p.modules.foldlM (fun data m =>
    match follow data m.package with
    | some _ => .ok data
    | none => putAt (.object []) m.package (some data)) data

/-- The data with the value of a name put in. -/
def withName (package : List String) (name : String) (given : Given) (base data : Json) :
    Except Fault Json :=
  let path := package ++ [name]
  match given, follow base path with
  | .undefined, _ => .ok data
  | .byDefault _, some _ => .ok data
  | .byDefault v, none => putAt v path (some data)
  | .byRule v, none => putAt v path (some data)
  | .byRule _, some _ => .error (.givenByData name)

/-- Whether one of two paths leads through the other. -/
def onOnePath (a b : List String) : Bool := a.isPrefixOf b || b.isPrefixOf a

/-- What a reference begins with, the data being looked up by `lookUp`. -/
def root (input : Json) (package : List String) (lookUp : List String → Result)
    (name : String) (keys : List String) : Result :=
  if name = inputRoot then .ok (follow input keys)
  else if name = dataRoot then lookUp keys
  else lookUp (package ++ name :: keys)

/-- What stands in the data at a path, going so many names deep. -/
def lookUp (p : Program) (input base : Json) : Nat → List String → Result
  | 0, _ => .error .cycle
  | depth + 1, path => do
    let concerned := p.names.filter fun (package, name) => onOnePath (package ++ [name]) path
    let data ← concerned.foldlM (fun data (package, name) => do
      let given ← p.valueOf (root input package (lookUp p input base depth)) package name
      withName package name given base data) base
    return follow data path

/-! ## Checks

A default must be a constant, and a reference must begin with a name that is known. -/

mutual

/-- Whether a term has no reference in it. -/
def isConstant : Term → Bool
  | .value _ => true
  | .array items => areConstant items
  | .object fields => areConstantFields fields
  | .ref _ _ _ => false

def areConstant : List Term → Bool
  | [] => true
  | t :: ts => isConstant t && areConstant ts

def areConstantFields : List (Term × Term) → Bool
  | [] => true
  | (k, v) :: rest => isConstant k && isConstant v && areConstantFields rest

end

mutual

/-- The names that references in a term begin with. -/
def roots : Term → List String
  | .value _ => []
  | .array items => rootsOfAll items
  | .object fields => rootsOfFields fields
  | .ref root _ steps => root :: rootsOfAll steps

def rootsOfAll : List Term → List String
  | [] => []
  | t :: ts => roots t ++ rootsOfAll ts

def rootsOfFields : List (Term × Term) → List String
  | [] => []
  | (k, v) :: rest => roots k ++ roots v ++ rootsOfFields rest

end

/-- The names that references in a statement begin with. -/
def Assertion.roots : Assertion → List String
  | .holds t => Program.roots t
  | .equal a b => Program.roots a ++ Program.roots b
  | .differ a b => Program.roots a ++ Program.roots b
  | .member a b => Program.roots a ++ Program.roots b

/-- The names that references in a rule begin with. -/
def rootsOfRule (r : Rule) : List String :=
  roots r.value ++ r.body.flatMap fun c => Assertion.roots c.assertion

/-- Whether a name can begin a reference in a package. -/
def isKnown (p : Program) (package : List String) (name : String) : Bool :=
  name == inputRoot || name == dataRoot || (p.inPackage package).any fun m =>
    (namesOf m).contains name

/-- The first fault of a module. -/
def faultOf (p : Program) (m : Module) : Option Fault :=
  match m.defaults.find? fun (_, t) => !isConstant t with
  | some (name, _) => some (.variableDefault name)
  | none =>
    ((m.rules.flatMap rootsOfRule).find? fun name => !p.isKnown m.package name).map .unknownName

/-- Nothing, if the program has no fault. -/
def check (p : Program) : Except Fault Unit :=
  match p.modules.findSome? p.faultOf with
  | some f => .error f
  | none => .ok ()

/-! ## Queries -/

/-- The keys that an entry point begins with, and the steps after them. -/
def splitEntry : List RefTerm → List String × List Json
  | .key name :: ts =>
    let (keys, more) := splitEntry ts
    (name :: keys, more)
  | ts => ([], ts.map fun
    | .key name => .string name
    | .index i => .ofInt i)

/-- The first word of an entry point that stands in a query as it is and is no name. -/
def reservedIn (e : EntryPoint) : Option String :=
  e.terms.findSome? fun
    | .key name => if keywords.contains name then some name else none
    | .index _ => none

/-- The value of an entry point for an input and data. -/
def query (p : Program) (e : EntryPoint) (input data : Json) : Result := do
  p.check
  match reservedIn e with
  | some word => .error (.reservedWord word)
  | none =>
    let base ← p.withPackages data
    let (keys, more) := splitEntry e.terms
    let v ← p.lookUp input base (p.names.length + 1) keys
    return more.foldl (fun v step => v.bind (index · step)) v

end Program

end AuthGate.Rego
