import AuthGate.Proofs.Store.History
import Mathlib.Logic.Function.Basic

set_option autoImplicit false

/-! # Changes of modules

Whatever is done with a store, in any order: its modules are those that the operations leave, its
generation counts the changes, and each change is told once to every trigger that was registered
before, when the store is already as the change leaves it. The main statement is
`performAll_announced`. -/

namespace AuthGate.Store

/-! ## What a trigger finds -/

/-- A trigger that is fired, and the store as it is when that happens. -/
structure Sighting where
  firing : Firing
  store : Store

/-- The triggers that steps fire. A step first changes the store and fires then. -/
def sightingsIn (s : Store) : List ModuleStep → List Sighting
  | [] => []
  | m :: ms => ((s.step m).2.map fun firing => ⟨firing, (s.step m).1⟩) ++ (s.step m).1.sightingsIn ms

/-- The steps on the modules that an operation takes. -/
def Operation.steps (s : Store) : Operation → List ModuleStep
  | .upsert id source => upsertSteps id source
  | .remove id => removeSteps id s
  | .replace modules _ => replaceSteps modules
  | .setData _ | .register _ | .begin | .close .. => []

/-- Whether an operation is one on the modules. -/
def Operation.onModules : Operation → Bool
  | .upsert .. | .remove _ | .replace .. => true
  | .setData _ | .register _ | .begin | .close .. => false

/-- An operation on the modules is a run of its steps. -/
theorem perform_of_onModules {op : Operation} (h : op.onModules = true) (s : Store) :
    (s.perform op).2 = s.run (op.steps s) := by
  cases op with
  | upsert | remove | replace => rfl
  | setData | register | begin | close => cases h

/-- The triggers that an operation fires. -/
def sightings (s : Store) (op : Operation) : List Sighting := s.sightingsIn (op.steps s)

theorem map_firing_sightingsIn (s : Store) (ms : List ModuleStep) :
    (s.sightingsIn ms).map Sighting.firing = (s.run ms).2 := by
  induction ms generalizing s with
  | nil => rfl
  | cons m rest ih =>
    simp only [sightingsIn, run, List.map_append, List.map_map, ih]
    exact congrArg (· ++ _) (List.map_id _)

theorem map_firing_sightings (s : Store) (op : Operation) :
    (s.sightings op).map Sighting.firing = (s.perform op).2.2 := by
  rw [sightings, map_firing_sightingsIn]
  cases op with
  | setData | upsert | remove | replace | register | begin => rfl
  | close t abort =>
    simp only [Operation.steps, perform]
    split <;> rfl

/-! ## Modules by name -/

/-- The sources by module name. -/
def sources (s : Store) (id : String) : Option String := Fields.get? id s.modules

/-- The sources after an operation on a store that has these. -/
def Operation.edit (sources : String → Option String) : Operation → String → Option String
  | .upsert id source => Function.update sources id (some source)
  | .remove id => Function.update sources id none
  | .replace modules _ => fun id => Fields.get? id modules
  | .setData _ | .register _ | .begin | .close .. => sources

/-- Whether an operation changes the modules of a store that has these: setting modules always
    counts as a change, removing one does if it is there. -/
def Operation.changes (sources : String → Option String) : Operation → Bool
  | .upsert .. | .replace .. => true
  | .remove id => (sources id).isSome
  | .setData _ | .register _ | .begin | .close .. => false

/-- The sources that operations leave in a store that was empty. -/
def sourcesAfter (ops : List Operation) : String → Option String :=
  ops.foldl Operation.edit fun _ => none

/-- How often operations change the modules. -/
def changeCount (sources : String → Option String) : List Operation → Nat
  | [] => 0
  | op :: ops => (op.changes sources).toNat + changeCount (op.edit sources) ops

/-- The triggers that operations register, in order. -/
def registered (ops : List Operation) : List String :=
  ops.filterMap fun
    | .register trigger => some trigger
    | _ => none

/-! ## One change -/

/-- The modules after a step. -/
def ModuleStep.edit (modules : Policy.Modules) : ModuleStep → Policy.Modules
  | .clear => []
  | .insert id source => Fields.insert id source modules
  | .remove id => Fields.erase id modules
  | .announce => modules

variable {ms : List ModuleStep}

/-- Steps that end with the announcement of what they did count as one change. -/
theorem run_announce (h : .announce ∉ ms) (s : Store) : (s.run (ms ++ [.announce])).1 =
    { s with modules := ms.foldl ModuleStep.edit s.modules, generation := s.generation + 1 } := by
  induction ms generalizing s with
  | nil => rfl
  | cons m rest ih =>
    obtain ⟨hm, hrest⟩ := not_or.1 (mt List.mem_cons.2 h)
    cases m with
    | announce => exact absurd rfl hm
    | clear | insert | remove => exact ih hrest _

/-- Only the announcement at the end fires, and it fires each trigger once. -/
theorem sightingsIn_announce (h : .announce ∉ ms) (s : Store) :
    s.sightingsIn (ms ++ [.announce]) =
      s.triggers.map fun t => ⟨⟨t, s.generation + 1⟩, (s.run (ms ++ [.announce])).1⟩ := by
  induction ms generalizing s with
  | nil => simp [sightingsIn, step, run]
  | cons m rest ih =>
    obtain ⟨hm, hrest⟩ := not_or.1 (mt List.mem_cons.2 h)
    cases m with
    | announce => exact absurd rfl hm
    | clear | insert | remove => exact ih hrest _

/-- The steps of a change, without its announcement. -/
def Operation.edits : Operation → List ModuleStep
  | .upsert id source => [.insert id source]
  | .remove id => [.remove id]
  | .replace modules _ => .clear :: modules.map fun (id, source) => .insert id source
  | .setData _ | .register _ | .begin | .close .. => []

theorem Operation.announce_notMem_edits (op : Operation) : .announce ∉ op.edits := by
  cases op <;> simp [Operation.edits]

theorem Operation.onModules_of_changes {sources : String → Option String} {op : Operation}
    (h : op.changes sources = true) : op.onModules = true := by
  cases op with
  | upsert | remove | replace => rfl
  | setData | register | begin | close => cases h

theorem steps_of_changes {s : Store} {op : Operation} (h : op.changes s.sources = true) :
    op.steps s = op.edits ++ [.announce] := by
  cases op with
  | upsert | replace => rfl
  | remove id => exact if_pos h
  | setData | register | begin | close => cases h

theorem steps_of_not_changes {s : Store} {op : Operation} (h : op.changes s.sources = false) :
    op.steps s = [] := by
  cases op with
  | upsert | replace => cases h
  | remove id => exact if_neg (Bool.not_eq_true _ ▸ h)
  | setData | register | begin | close => rfl

/-- An operation that changes nothing leaves the sources as they are. -/
theorem Operation.edit_of_not_changes {sources : String → Option String} {op : Operation}
    (h : op.changes sources = false) : op.edit sources = sources := by
  cases op with
  | upsert | replace => cases h
  | remove id =>
    have hnone : sources id = none := Option.isNone_iff_eq_none.1 (Option.isSome_eq_false_iff.1 h)
    exact Function.update_eq_self_iff.2 hnone.symm
  | setData | register | begin | close => rfl

/-- The modules and the generation depend only on the steps that an operation takes. -/
theorem perform_eq_run (s : Store) (op : Operation) :
    (s.perform op).2.1.modules = (s.run (op.steps s)).1.modules ∧
      (s.perform op).2.1.generation = (s.run (op.steps s)).1.generation := by
  cases op with
  | setData | upsert | remove | replace | register | begin => exact ⟨rfl, rfl⟩
  | close t abort =>
    obtain ⟨_, _, _, h⟩ := s.exists_close_eq t abort
    rw [h]
    exact ⟨rfl, rfl⟩

theorem get?_foldl_edits (op : Operation) (modules : Policy.Modules) (id : String) :
    Fields.get? id (op.edits.foldl ModuleStep.edit modules) =
      op.edit (fun name => Fields.get? name modules) id := by
  cases op with
  | upsert name source =>
    rw [Operation.edit, Function.update_apply]
    simp only [eq_comm (a := id)]
    exact Fields.get?_insert name id source modules
  | remove name =>
    rw [Operation.edit, Function.update_apply]
    simp only [eq_comm (a := id)]
    exact Fields.get?_erase name id modules
  | replace others sorted =>
    have hsteps : (Operation.replace others sorted).edits.foldl ModuleStep.edit modules =
        others.foldl (fun fields (n, v) => Fields.insert n v fields) [] := by
      simp only [Operation.edits, List.foldl_cons, List.foldl_map]
      rfl
    rw [hsteps, Fields.get?_foldl_insert id sorted.nodup]
    exact Option.or_none
  | setData | register | begin | close => rfl

theorem sorted_foldl_edit {modules : Policy.Modules} (h : Fields.Sorted modules) :
    Fields.Sorted (ms.foldl ModuleStep.edit modules) := by
  induction ms generalizing modules with
  | nil => exact h
  | cons m rest ih =>
    apply ih
    cases m with
    | clear => exact Fields.sorted_nil
    | insert id source => exact h.insert id source
    | remove id => exact h.erase id
    | announce => exact h

/-! ## One operation -/

/-- What the modules of a store are known to be, how often they have changed, and who is told when
    they change. -/
structure Tracks (sources : String → Option String) (changes : Nat) (triggers : List String)
    (s : Store) : Prop where
  sorted : Fields.Sorted s.modules
  sources : s.sources = sources
  generation : s.generation = changes
  triggers : s.triggers = triggers

theorem triggers_perform (s : Store) (op : Operation) :
    (s.perform op).2.1.triggers = s.triggers ++ registered [op] := by
  cases op with
  | register => rfl
  | setData | begin => exact (List.append_nil _).symm
  | upsert | remove | replace => exact (s.triggers_run _).trans (List.append_nil _).symm
  | close t abort =>
    obtain ⟨_, _, _, h⟩ := s.exists_close_eq t abort
    rw [h]
    exact (List.append_nil _).symm

section Step

variable {s : Store} {view : String → Option String} {n : Nat} {triggers : List String}

theorem Tracks.perform (h : Tracks view n triggers s) (op : Operation) :
    Tracks (op.edit view) (n + (op.changes view).toNat) (triggers ++ registered [op])
      (s.perform op).2.1 := by
  obtain ⟨hmodules, hgeneration⟩ := s.perform_eq_run op
  obtain ⟨hsorted, rfl, rfl, rfl⟩ := h
  cases hop : op.changes s.sources with
  | true =>
    rw [steps_of_changes hop, run_announce op.announce_notMem_edits] at hmodules hgeneration
    exact {
      sorted := hmodules ▸ sorted_foldl_edit hsorted
      sources := by
        funext id
        rw [Store.sources, hmodules]
        exact get?_foldl_edits op s.modules id
      generation := hgeneration
      triggers := s.triggers_perform op }
  | false =>
    -- an operation that changes nothing takes no steps
    rw [steps_of_not_changes hop] at hmodules hgeneration
    exact {
      sorted := hmodules ▸ hsorted
      sources := by
        rw [op.edit_of_not_changes hop]
        funext id
        rw [Store.sources, hmodules]
        rfl
      generation := hgeneration
      triggers := s.triggers_perform op }

theorem Tracks.performAll (h : Tracks view n triggers s) (ops : List Operation) :
    Tracks (ops.foldl Operation.edit view) (n + changeCount view ops)
      (triggers ++ registered ops) (s.performAll ops) := by
  induction ops generalizing s view n triggers with
  | nil => exact (List.append_nil triggers).symm ▸ h
  | cons op rest ih =>
    have hregistered : registered (op :: rest) = registered [op] ++ registered rest := by
      rw [← List.singleton_append]
      exact List.filterMap_append
    rw [hregistered, ← List.append_assoc, changeCount, ← Nat.add_assoc]
    exact ih (h.perform op)

/-- A change is told to every trigger, first to the one that was registered first. -/
theorem sightings_of_changes {op : Operation} (h : op.changes s.sources = true) :
    s.sightings op =
      s.triggers.map fun t => ⟨⟨t, (s.perform op).2.1.generation⟩, (s.perform op).2.1⟩ := by
  have hafter : (s.perform op).2.1 = (s.run (op.edits ++ [.announce])).1 := by
    rw [perform_of_onModules (Operation.onModules_of_changes h), steps_of_changes h]
  rw [hafter, sightings, steps_of_changes h, sightingsIn_announce op.announce_notMem_edits,
    run_announce op.announce_notMem_edits]

theorem sightings_of_not_changes {op : Operation} (h : op.changes s.sources = false) :
    s.sightings op = [] := by
  rw [sightings, steps_of_not_changes h, sightingsIn]

end Step

/-- Removal says whether the module was there. -/
theorem perform_remove (s : Store) (id : String) :
    (s.perform (.remove id)).1 = .removed (s.sources id).isSome :=
  rfl

/-! ## All operations -/

/-- What holds of the modules of a store after some operations. -/
structure Announced (ops : List Operation) (s : Store) : Prop where
  /-- The modules are those that the operations leave, in the order of their names. -/
  sorted : Fields.Sorted s.modules
  sources (id : String) : Fields.get? id s.modules = sourcesAfter ops id
  /-- The generation counts the changes. -/
  generation : s.generation = changeCount (fun _ => none) ops
  /-- Removal says whether the module was there. -/
  removed (id : String) :
    (s.perform (.remove id)).1 = .removed (sourcesAfter ops id).isSome
  /-- The triggers that the next operation fires are all that were registered, in that order and
      each once, if the operation changes the modules, and none otherwise. They are told the new
      generation. -/
  fired (op : Operation) : (s.perform op).2.2 =
    if op.changes (sourcesAfter ops) then
      (registered ops).map fun t => ⟨t, changeCount (fun _ => none) (ops ++ [op])⟩
    else []
  /-- An operation on the modules is a run of its steps, during which its triggers fire. -/
  ran (op : Operation) : op.onModules = true → (s.perform op).2 = s.run (op.steps s)
  /-- These are the firings that happen in the course of the operation. -/
  sighted (op : Operation) : (s.sightings op).map Sighting.firing = (s.perform op).2.2
  /-- When a trigger fires the store is already as the operation leaves it. -/
  seen (op : Operation) : ∀ x ∈ s.sightings op,
    x.store = (s.perform op).2.1 ∧ x.store.generation = x.firing.generation ∧
      Fields.Sorted x.store.modules ∧
      ∀ id, Fields.get? id x.store.modules = sourcesAfter (ops ++ [op]) id

/-- Changes of the modules are announced after any operations, in any order. -/
theorem performAll_announced (data : Json) (ops : List Operation) :
    Announced ops (performAll { data } ops) := by
  have hnew : Tracks (fun _ => none) 0 [] { data } := ⟨Fields.sorted_nil, rfl, rfl, rfl⟩
  have htracks : ∀ ops, Tracks (sourcesAfter ops) (changeCount (fun _ => none) ops)
      (registered ops) (performAll { data } ops) := by
    intro ops
    have h := hnew.performAll ops
    rwa [Nat.zero_add, List.nil_append] at h
  have hnow := htracks ops
  have hnext : ∀ op, Tracks (sourcesAfter (ops ++ [op])) (changeCount (fun _ => none) (ops ++ [op]))
      (registered (ops ++ [op])) ((performAll { data } ops).perform op).2.1 :=
    fun op => performAll_snoc { data } ops op ▸ htracks (ops ++ [op])
  refine ⟨hnow.sorted, congrFun hnow.sources, hnow.generation, fun id => ?_, fun op => ?_,
    fun op hop => perform_of_onModules hop _, map_firing_sightings _, fun op x hx => ?_⟩
  · rw [perform_remove, hnow.sources]
  · rw [← map_firing_sightings, ← hnow.sources, ← hnow.triggers, ← (hnext op).generation]
    split
    · next h =>
      rw [sightings_of_changes h, List.map_map]
      rfl
    · next h => rw [sightings_of_not_changes (Bool.not_eq_true _ ▸ h), List.map_nil]
  · cases h : op.changes (performAll { data } ops).sources with
    | true =>
      rw [sightings_of_changes h] at hx
      obtain ⟨t, -, rfl⟩ := List.mem_map.1 hx
      exact ⟨rfl, rfl, (hnext op).sorted, congrFun (hnext op).sources⟩
    | false =>
      rw [sightings_of_not_changes h] at hx
      cases hx

end AuthGate.Store
