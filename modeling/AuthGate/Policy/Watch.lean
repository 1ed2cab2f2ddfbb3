import AuthGate.Policy.Load
import AuthGate.Store.Basic

set_option autoImplicit false

/-! # Watching a policy

A watched folder is loaded again when a module in it changes. Changes are told through a queue that
holds a few notices and takes no more when it is full. A loop takes one notice, then reads the
folder, then puts what it read in place of the store's modules. The steps of all three may
alternate in any order. -/

namespace AuthGate.Policy

/-- What happened to a file: what stands at the path now, if anything does. -/
structure FileChange where
  path : List String
  node : Option FileNode

/-- The tree after a change. -/
def FileChange.apply (c : FileChange) (t : FileTree) : FileTree :=
  match c.node with
  | some n => t.put c.path n
  | none => t.remove c.path

/-- Whether a change is one of a module that stands directly in a folder. -/
def FileChange.isNoticed (folder : List String) (c : FileChange) : Bool :=
  match c.path.getLast? with
  | some name => c.path.dropLast == folder && isModuleName name
  | none => false

/-- Where the loop stands. -/
inductive ReloadPhase where
  /-- It waits for a notice. -/
  | waiting
  /-- It has taken a notice and not yet read the folder. -/
  | noticed
  /-- It has read the folder and not yet installed what it read. -/
  | loaded (modules : Modules)
  deriving DecidableEq, Repr

/-- A watched folder, its notices and the store that it is loaded into. -/
structure Watch where
  files : FileTree
  folder : String
  /-- How many notices are queued. -/
  queued : Nat := 0
  phase : ReloadPhase := .waiting
  store : Store

namespace Watch

/-- How many notices the queue holds. -/
def capacity : Nat := 10

/-- A step of the folder, of what tells about it, or of the loop. -/
inductive Step where
  /-- The files are others now. -/
  | change (files : FileTree)
  /-- A notice is sent; it is dropped if the queue is full. -/
  | notify
  | receive
  | load
  | install

/-- What follows a step; a step whose turn it is not changes nothing. A folder that cannot be read
    leaves the store as it is. -/
def step (w : Watch) : Step → Watch
  | .change files => { w with files }
  | .notify => if w.queued < capacity then { w with queued := w.queued + 1 } else w
  | .receive =>
    match w.phase, w.queued with
    | .waiting, n + 1 => { w with queued := n, phase := .noticed }
    | _, _ => w
  | .load =>
    match w.phase with
    | .noticed =>
      match Policy.load w.files w.folder with
      | .ok modules => { w with phase := .loaded modules }
      | .error _ => { w with phase := .waiting }
    | _ => w
  | .install =>
    match w.phase with
    | .loaded modules => { w with phase := .waiting, store := (w.store.replace modules).1 }
    | _ => w

/-- What follows several steps. -/
def run (w : Watch) (steps : List Step) : Watch := steps.foldl step w

/-- The start of a watch. There must be something to watch. -/
def start (files : FileTree) (folder : String) (store : Store) : Except Failure Watch :=
  match files.find folder with
  | .ok _ => .ok { files, folder, store }
  | .error fault =>
    .error ⟨.config, s!"failed to watch policy directory {folder}: {fault.message}"⟩

/-- The steps that follow changes which happen at once: they are told together, and the folder is
    loaded once if a module is among them. -/
def stepsAfter (w : Watch) (changes : List FileChange) : List Step :=
  .change (changes.foldl (fun t c => c.apply t) w.files) ::
    (if changes.any (·.isNoticed (w.files.absolute w.folder)) then
      [.notify, .receive, .load, .install]
    else [])

end Watch

end AuthGate.Policy
