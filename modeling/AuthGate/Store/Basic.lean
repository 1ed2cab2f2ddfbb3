import AuthGate.Failure
import AuthGate.Json.Basic
import AuthGate.Policy.Modules

set_option autoImplicit false

/-! # The store

The store holds the data document and the modules of the policy. A call reads the data in a
transaction of its own, which keeps the document as it was when the transaction began, and is
closed once, by a commit or an abort.

A change to the modules makes compiled queries stale. It counts up the generation, and whoever has
registered a trigger is told the new one. -/

namespace AuthGate

/-- A read view of the data. -/
structure Transaction where
  id : Nat
  data : Json

/-- A trigger that was fired, with the generation that it was told. -/
structure Firing where
  trigger : String
  generation : Nat
  deriving DecidableEq, Repr

/-- The modules, the data and the transactions on it. -/
structure Store where
  data : Json := .object []
  modules : Policy.Modules := []
  generation : Nat := 0
  /-- The number that the next transaction is given. -/
  nextId : Nat := 1
  /-- The numbers of the transactions that are open. -/
  opened : List Nat := []
  commits : Nat := 0
  aborts : Nat := 0
  /-- The triggers in the order in which they were registered. -/
  triggers : List String := []

namespace Store

/-- The store with another data document. Transactions keep theirs. -/
def setData (data : Json) (s : Store) : Store := { s with data }

/-- The store with one trigger more. -/
def register (trigger : String) (s : Store) : Store :=
  { s with triggers := s.triggers ++ [trigger] }

/-! ## Modules -/

/-- One step on the map of modules, or the announcement of a change. Steps of different operations
    may alternate. -/
inductive ModuleStep where
  | clear
  | insert (id source : String)
  | remove (id : String)
  | announce
  deriving DecidableEq, Repr

/-- A store and the triggers that were fired. -/
abbrev Fired := Store × List Firing

/-- The store after a step. An announcement fires every trigger, first the one that was registered
    first. -/
def step (s : Store) : ModuleStep → Fired
  | .clear => ({ s with modules := [] }, [])
  | .insert id source => ({ s with modules := Fields.insert id source s.modules }, [])
  | .remove id => ({ s with modules := Fields.erase id s.modules }, [])
  | .announce =>
    let generation := s.generation + 1
    ({ s with generation }, s.triggers.map fun t => ⟨t, generation⟩)

/-- The store after steps that nothing interrupts. -/
def run (s : Store) : List ModuleStep → Fired
  | [] => (s, [])
  | m :: ms =>
    let (s, fired) := s.step m
    let (s, later) := run s ms
    (s, fired ++ later)

/-- The steps of setting one module. -/
def upsertSteps (id source : String) : List ModuleStep := [.insert id source, .announce]

/-- The steps of setting all modules. -/
def replaceSteps (modules : Policy.Modules) : List ModuleStep :=
  .clear :: (modules.map fun (id, source) => .insert id source) ++ [.announce]

/-- The steps of removing one module: none if it is not there. -/
def removeSteps (id : String) (s : Store) : List ModuleStep :=
  if Fields.contains id s.modules then [.remove id, .announce] else []

/-- The store with one module set. -/
def upsert (id source : String) (s : Store) : Fired := s.run (upsertSteps id source)

/-- The store with other modules. -/
def replace (modules : Policy.Modules) (s : Store) : Fired := s.run (replaceSteps modules)

/-- The store without a module, and whether it was there; nothing happens if it was not. -/
def remove (id : String) (s : Store) : Bool × Fired :=
  (Fields.contains id s.modules, s.run (removeSteps id s))

/-! ## Transactions -/

/-- A new transaction on the data as it is. -/
def begin (s : Store) : Transaction × Store :=
  (⟨s.nextId, s.data⟩, { s with nextId := s.nextId + 1, opened := s.nextId :: s.opened })

/-- The store after a transaction's end. Only a transaction that is open can be closed. -/
def close (t : Transaction) (abort : Bool) (s : Store) : Except Failure Store :=
  if s.opened.contains t.id then
    let s := { s with opened := s.opened.erase t.id }
    .ok (if abort then { s with aborts := s.aborts + 1 } else { s with commits := s.commits + 1 })
  else .error ⟨.store, s!"transaction {t.id} is not open"⟩

end Store

end AuthGate
