import AuthGate.Store.Basic

set_option autoImplicit false

/-! # The history of a store

What may be done with a store, one operation after the other, and what it answers. A handle that is
closed need not come from the store: any transaction may be given back, also one that has been given
back before. -/

namespace AuthGate.Store

/-- What may be done with a store. -/
inductive Operation where
  | setData (data : Json)
  | upsert (id source : String)
  | remove (id : String)
  /-- The new modules are a map: each name occurs once. -/
  | replace (modules : Policy.Modules) (sorted : Fields.Sorted modules)
  | register (trigger : String)
  | begin
  | close (t : Transaction) (abort : Bool)

/-- What a store answers. -/
inductive Answer where
  | done
  | removed (found : Bool)
  | begun (t : Transaction)
  | closed (r : Except Failure Unit)

/-- An operation on a store: the answer, the store after it, and the triggers that were fired. -/
def perform (s : Store) : Operation → Answer × Fired
  | .setData data => (.done, s.setData data, [])
  | .upsert id source => (.done, s.upsert id source)
  | .remove id =>
    let (found, change) := s.remove id
    (.removed found, change)
  | .replace modules _ => (.done, s.replace modules)
  | .register trigger => (.done, s.register trigger, [])
  | .begin =>
    let (t, s) := s.begin
    (.begun t, s, [])
  | .close t abort =>
    match s.close t abort with
    | .ok closed => (.closed (.ok ()), closed, [])
    | .error f => (.closed (.error f), s, [])

/-- The store after some operations. -/
def performAll (s : Store) (ops : List Operation) : Store :=
  ops.foldl (fun s op => (s.perform op).2.1) s

@[simp] theorem performAll_nil (s : Store) : s.performAll [] = s := rfl

@[simp] theorem performAll_snoc (s : Store) (ops : List Operation) (op : Operation) :
    s.performAll (ops ++ [op]) = ((s.performAll ops).perform op).2.1 := by
  simp only [performAll, List.foldl_append, List.foldl_cons, List.foldl_nil]

/-- Steps on the modules touch the modules and the generation only. -/
theorem exists_run_eq (s : Store) (ms : List ModuleStep) :
    ∃ modules generation, (s.run ms).1 = { s with modules, generation } := by
  induction ms generalizing s with
  | nil => exact ⟨s.modules, s.generation, rfl⟩
  | cons m rest ih =>
    obtain ⟨modules, generation, hrest⟩ := ih (s.step m).1
    refine ⟨modules, generation, ?_⟩
    rw [run, hrest]
    cases m <;> rfl

/-- The end of a transaction touches the books only. -/
theorem exists_close_eq (s : Store) (t : Transaction) (abort : Bool) :
    ∃ opened commits aborts,
      (s.perform (.close t abort)).2.1 = { s with opened, commits, aborts } := by
  simp only [perform, close]
  split
  · next h =>
    split at h
    · cases h
      cases abort <;> exact ⟨_, _, _, rfl⟩
    · cases h
  · exact ⟨s.opened, s.commits, s.aborts, rfl⟩

theorem triggers_run (s : Store) (ms : List ModuleStep) : (s.run ms).1.triggers = s.triggers := by
  obtain ⟨_, _, h⟩ := s.exists_run_eq ms
  rw [h]

end AuthGate.Store
