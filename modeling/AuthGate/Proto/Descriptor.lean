import AuthGate.Proto.Descriptor.Fields

set_option autoImplicit false

/-! # Descriptor sets

A schema may come as a set of files that describe their types in messages of a fixed schema. The files
are read, their names are gathered, and every type, enumeration and service is checked and kept. -/

namespace AuthGate.Proto

namespace DescriptorSet

/-! ## Enumerations and services -/

/-- An enumeration. -/
def enumerationOf (implicit : Bool) (d : Declared) : Except DescriptorFault Enumeration := do
  let values := (d.body.messages 2).map fun m => (m.text 1, m.int 2)
  match values with
  | [] => .error (.emptyEnumeration d.name)
  | (_, first) :: _ =>
    if implicit && first != 0 then .error (.nonzeroFirst d.name)
    if !(((d.body.nested? 3).map (·.bool 2)).getD false) then
      checkDistinct (.duplicateNumber d.name) (values.map (·.2))
    checkReserved true d.name (d.body.messages 4) (values.map (·.2))
    return ⟨d.name, values⟩

/-- The message type that a method refers to. -/
def methodType (names : Names) (seen : List String) (scope name : String) :
    Except DescriptorFault String := do
  let (full, d) ← resolve names seen scope name
  if d = .message then return full else .error (.invalidType scope name)

/-- A service. -/
def serviceOf (names : Names) (seen : List String) (d : Declared) :
    Except DescriptorFault Service := do
  let methods ← (d.body.messages 2).mapM fun m => do
    let input ← methodType names seen d.name (m.text 2)
    let output ← methodType names seen d.name (m.text 3)
    return (⟨m.text 1, input, output⟩ : Method)
  return ⟨d.name, methods⟩

/-! ## The set -/

/-- Nothing, if what a file imports is there. -/
def checkImports (files : List File) (f : File) : Except DescriptorFault Unit :=
  match f.imports.find? fun name => !files.any (·.name == name) with
  | some name => .error (.missingImport f.name name)
  | none =>
    match (f.passedOn ++ f.weak).find? fun i => i < 0 || (f.imports.length : Int) ≤ i with
    | some i => .error (.invalidImport f.name i)
    | none => .ok ()

/-- The names of the values of an enumeration. -/
def valueNames (files : List File) (name : String) : List String :=
  match (files.flatMap (·.enumerations)).find? (·.name == name) with
  | some d => (d.body.messages 2).map (·.text 1)
  | none => []

/-- The schema of files. -/
def schemaOf (files : List File) : Except DescriptorFault Schema := do
  checkDistinct .duplicateName (files.map (·.name))
  let names ← namesOf files
  let entries := entryTypes files
  let extensible := (files.flatMap (·.messages)).map fun d => (d.name, d.body.messages 5)
  let parts ← files.mapM fun f => do
    checkImports files f
    let seen := visible files (files.length + 1) f
    let c : FieldScope := ⟨names, seen, entries, valueNames files, f.implicit⟩
    let messages ← f.messages.mapM (messageOf c)
    let enumerations ← f.enumerations.mapM (enumerationOf f.implicit)
    let services ← f.services.mapM (serviceOf names seen)
    let extensions ← f.extensions.mapM (extensionOf c extensible)
    return ((⟨messages, enumerations, services⟩ : Schema), extensions)
  let schemas := parts.map (·.1)
  return {
    messages := (schemas.flatMap (·.messages)).map (extended (parts.flatMap (·.2)))
    enumerations := schemas.flatMap (·.enumerations)
    services := schemas.flatMap (·.services) }

end DescriptorSet

/-- The schema that the bytes of a descriptor set describe. -/
def Schema.ofDescriptorSet (bs : List UInt8) : Except DescriptorFault Schema := do
  match decode? DescriptorSet.schema "Set" bs with
  | none => .error .malformed
  | some m =>
    let files ← (m.messages 1).mapM DescriptorSet.File.ofMessage
    DescriptorSet.schemaOf files

end AuthGate.Proto
