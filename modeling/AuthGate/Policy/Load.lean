import AuthGate.Failure
import AuthGate.FileTree
import AuthGate.Policy.Modules
import AuthGate.Text.Utf8
import AuthGate.Yaml.Scalar

set_option autoImplicit false

/-! # Policies and data from files

The modules of a policy are the files directly in a folder whose names end in `.rego`, each under
its file name. The data document is a file of YAML, of which JSON is a part. -/

namespace AuthGate.Policy

/-- What a file name ends in after the last dot, unless that dot begins the name. -/
def extension? (name : String) : Option String :=
  let tail := name.toList.reverse.takeWhile (· != '.')
  let before := (name.toList.reverse.dropWhile (· != '.')).drop 1
  if before.isEmpty then none else some (String.ofList tail.reverse)

/-- Whether a file of this name is a module. -/
def isModuleName (name : String) : Bool := extension? name == some "rego"

/-- A name inside a folder. -/
def inside (folder name : String) : String :=
  if folder.endsWith "/" then folder ++ name else folder ++ "/" ++ name

/-- The modules of a folder. -/
def load (t : FileTree) (folder : String) : Except Failure Modules :=
  match t.list folder with
  | .error fault =>
    .error ⟨.config, s!"failed to read policy directory {folder}: {fault.message}"⟩
  | .ok nodes =>
    nodes.foldlM (fun modules (name, n) =>
      match n with
      | .folder => .ok modules
      | .socket => .ok modules
      | .file bytes =>
        if isModuleName name then
          match Text.Utf8.decode? bytes with
          | some source => .ok (Fields.insert name (String.ofList source) modules)
          | none =>
            .error ⟨.config, s!"failed to read policy {inside folder name}: " ++
              "stream did not contain valid UTF-8"⟩
        else .ok modules) []

/-- The data document of a file. -/
def loadData (t : FileTree) (file : String) : Except Failure Json :=
  match t.read file with
  | .error fault => .error ⟨.config, s!"failed to read data file {file}: {fault.message}"⟩
  | .ok bytes =>
    match Yaml.data? bytes with
    | some data => .ok data
    | none => .error ⟨.config, s!"failed to parse data file {file}: the file holds no document"⟩

end AuthGate.Policy
