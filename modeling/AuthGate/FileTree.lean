import AuthGate.Fields
import AuthGate.Text.Blank

set_option autoImplicit false

/-! # Files

The files that the program sees, as a value: what stands at which path. A path that does not begin
with a slash is read from the working folder. -/

namespace AuthGate

/-- What stands at a path. -/
inductive FileNode where
  | file (bytes : List UInt8)
  | folder
  | socket
  deriving DecidableEq, Repr

/-- Files and folders by path, a path being the names along it. -/
structure FileTree where
  /-- The working folder. -/
  home : List String
  nodes : List (List String × FileNode)
  deriving Repr

/-- Why a path cannot be used. -/
inductive FileFault where
  | missing
  | notFolder
  | isFolder
  | noReader
  deriving DecidableEq, Repr

/-- The wording of a fault. -/
def FileFault.message : FileFault → String
  | .missing => "No such file or directory (os error 2)"
  | .notFolder => "Not a directory (os error 20)"
  | .isFolder => "Is a directory (os error 21)"
  | .noReader => "No such device or address (os error 6)"

namespace FileTree

/-- The names along a path. -/
def names (path : String) : List String :=
  ((Text.splitAll '/' path.toList).map String.ofList).filter fun n => !n.isEmpty && n != "."

/-- The names along a path from the root. -/
def absolute (t : FileTree) (path : String) : List String :=
  if path.startsWith "/" then names path else t.home ++ names path

/-- What stands at the names from the root; the root itself is a folder. -/
def node? (t : FileTree) (at_ : List String) : Option FileNode :=
  if at_.isEmpty then some .folder else (t.nodes.find? (·.1 == at_)).map (·.2)

/-- What stands below a folder, name by name. -/
def walk (t : FileTree) (above : List String) : List String → Except FileFault FileNode
  | [] =>
    match t.node? above with
    | some n => .ok n
    | none => .error .missing
  | name :: rest =>
    match t.node? above with
    | some .folder => walk t (above ++ [name]) rest
    | some _ => .error .notFolder
    | none => .error .missing

/-- What stands at a path. -/
def find (t : FileTree) (path : String) : Except FileFault FileNode :=
  if path.isEmpty then .error .missing
  else do
    match ← t.walk [] (t.absolute path) with
    | .folder => return .folder
    | n => if path.endsWith "/" then .error .notFolder else return n

/-- The bytes of a file. -/
def read (t : FileTree) (path : String) : Except FileFault (List UInt8) := do
  match ← t.find path with
  | .file bytes => return bytes
  | .folder => .error .isFolder
  | .socket => .error .noReader

/-- What stands in a folder, by name. -/
def list (t : FileTree) (path : String) : Except FileFault (List (String × FileNode)) := do
  match ← t.find path with
  | .file _ => .error .notFolder
  | .socket => .error .notFolder
  | .folder =>
    let above := t.absolute path
    return t.nodes.filterMap fun (at_, n) =>
      match at_.getLast? with
      | some name => if at_.dropLast == above then some (name, n) else none
      | none => none

/-- The tree with something put at the names from the root, in place of what stood there. -/
def put (t : FileTree) (at_ : List String) (n : FileNode) : FileTree :=
  { t with nodes := t.nodes.filter (·.1 != at_) ++ [(at_, n)] }

/-- The tree without what stands at the names from the root. -/
def remove (t : FileTree) (at_ : List String) : FileTree :=
  { t with nodes := t.nodes.filter (·.1 != at_) }

/-- The folders above a path, the outermost first. -/
def foldersAbove : List String → List (List String)
  | [] => []
  | [_] => []
  | name :: rest => [name] :: (foldersAbove rest).map (name :: ·)

/-- The tree of files at paths, with the folders that they stand in. -/
def ofFiles (files : List (String × List UInt8)) : FileTree :=
  let files := files.map fun (path, bytes) => (names path, bytes)
  let folders := (files.flatMap fun (at_, _) => foldersAbove at_).eraseDups
  ⟨[], folders.map (·, .folder) ++ files.map fun (at_, bytes) => (at_, .file bytes)⟩

end FileTree

end AuthGate
