import AuthGate.Call.Pipeline
import AuthGate.Engine.Interpreter
import AuthGate.Engine.Value
import AuthGate.Policy.Modules

set_option autoImplicit false

/-! # Compiled queries

To compile a query, all modules are added to a fresh session of the interpreter, and a copy of the
session is asked for the query once without data and on an empty input; only whether that fails
matters. The query keeps the session as it was before, and every evaluation works on a copy of it. -/

namespace AuthGate

/-- A compiled query: a session that holds the modules, and what it will be asked for. -/
structure CompiledQuery (ε : Type) where
  session : ε
  entry : EntryPoint

namespace CompiledQuery

variable {ε : Type}

/-- The failure of an evaluation. -/
def failure (cause : String) : Failure := ⟨.evaluation, cause⟩

/-- A session that holds modules; the first that the interpreter refuses is named. -/
def addModules (i : Interpreter ε) (modules : Policy.Modules) : Except Failure ε :=
  modules.foldlM (fun session (id, source) =>
    (i.addModule id source session).mapError fun cause => failure s!"{id}: {cause}") i.fresh

/-- Nothing, if a copy of a session has no objection to an entry point. -/
def validate (i : Interpreter ε) (session : ε) (e : EntryPoint) : Except Failure Unit :=
  match (i.query e (i.setInput (.object []) session)).1 with
  | .ok _ => .ok ()
  | .error cause => .error (failure s!"{e.render}: {cause}")

/-- The compiled query of an entry point. -/
def compile (i : Interpreter ε) (modules : Policy.Modules) (e : EntryPoint) :
    Except Failure (CompiledQuery ε) := do
  let session ← addModules i modules
  validate i session e
  return ⟨session, e⟩

/-- The decision of a copy of the session on an input and data, if there is one. -/
def decide (i : Interpreter ε) (q : CompiledQuery ε) (input data : Json) :
    Except Failure (Option Json) := do
  let data ← Engine.toValue data
  let session ← (i.addData data q.session).mapError failure
  let decision ← (i.query q.entry (i.setInput input session)).1.mapError failure
  decision.mapM Engine.ofValue

/-- The evaluation of a query on the data of a transaction, which took so many nanoseconds. -/
def evaluate (i : Interpreter ε) (q : CompiledQuery ε) (input : Json) (t : Transaction)
    (nanos : UInt64) : Except Failure Evaluation := do
  let decision ← q.decide i input t.data
  return { decision, metrics := { entries := [(evalTimer, nanos)] } }

end CompiledQuery

/-- What a call works with besides the store and the engine. -/
structure Surroundings (σ : Type) where
  nextId : σ → Except Failure String × σ
  log : AuditEntry → σ → Except Failure Unit × σ
  /-- Nanoseconds on a clock that never goes back. -/
  clock : σ → UInt64
  /-- The time of day. -/
  today : σ → Instant

/-- A store with what surrounds it. -/
structure World (σ : Type) where
  store : Store
  outside : σ

/-- What a call works with over a store: queries are compiled from the store's modules and evaluated
    on the data of the call's transaction. -/
def Surroundings.collaborators {σ ε : Type} (c : Surroundings σ) (i : Interpreter ε) :
    Collaborators (World σ) (CompiledQuery ε) where
  nextId w :=
    let (r, outside) := c.nextId w.outside
    (r, { w with outside })
  openTransaction w :=
    let (t, store) := w.store.begin
    (.ok t, { w with store })
  closeTransaction t abort w :=
    match w.store.close t abort with
    | .ok store => (.ok (), { w with store })
    | .error f => (.error f, w)
  convert := Engine.convert
  prepare e w := (CompiledQuery.compile i w.store.modules e, w)
  evaluate q v t w := ((q.evaluate i v t 0).mapError .failed, w)
  log e w :=
    let (r, outside) := c.log e w.outside
    (r, { w with outside })
  clock w := c.clock w.outside
  today w := c.today w.outside

end AuthGate
