import AuthGate.Engine.Query
import AuthGate.Proofs.Store.Recompilation
import AuthGate.Rego.Session

set_option autoImplicit false

/-! # Modules that are read while they are replaced

A replacement of all modules is not one step: the modules are cleared, then set one by one, and the
change is announced at the end. Queries that are prepared meanwhile are compiled from the modules
that are there: from the old ones, or from those of the new that have been set
(`Replacement.compiled_iff`). A query may so be compiled from modules that nobody installed, and let
pass what both the old and the new policy deny (`Replacement.compiled_partial`). After the
announcement there are only the new ones. -/

namespace AuthGate.Store

/-- A replacement of the modules under way. -/
structure Replacement where
  store : Store
  /-- The steps that the replacement still has to take. -/
  left : List ModuleStep
  /-- The modules that queries were compiled from meanwhile, in order. -/
  compiled : List Policy.Modules := []

namespace Replacement

/-- Whose step comes next. -/
inductive Turn where
  /-- The replacement takes a step, if there is one left. -/
  | advance
  /-- A call reads all modules and compiles its query from them. -/
  | prepare
  deriving DecidableEq, Repr

/-- A replacement that has taken no step. -/
def start (s : Store) (new : Policy.Modules) : Replacement := ⟨s, replaceSteps new, []⟩

/-- The replacement after a turn. -/
def after (r : Replacement) : Turn → Replacement
  | .advance =>
    match r.left with
    | [] => r
    | m :: ms => { r with store := (r.store.step m).1, left := ms }
  | .prepare => { r with compiled := r.compiled ++ [r.store.modules] }

/-- The replacement after some turns. -/
def run (r : Replacement) (turns : List Turn) : Replacement := turns.foldl after r

theorem run_append (r : Replacement) (turns later : List Turn) :
    r.run (turns ++ later) = (r.run turns).run later :=
  List.foldl_append

/-! ## How far a replacement has come -/

/-- The steps that set modules and announce the change. -/
def fillSteps (rest : Policy.Modules) : List ModuleStep :=
  (rest.map fun (id, source) => .insert id source) ++ [.announce]

/-- Where a replacement of the old modules by new ones stands. -/
inductive Stands (s : Store) (new : Policy.Modules) (r : Replacement) : Prop
  | untouched (left : r.left = replaceSteps new) (modules : r.store.modules = s.modules)
    (generation : r.store.generation = s.generation)
  | filling (done rest : Policy.Modules) (split : new = done ++ rest) (left : r.left = fillSteps rest)
    (modules : r.store.modules = Fields.ofList done) (generation : r.store.generation = s.generation)
  | announced (left : r.left = []) (modules : r.store.modules = Fields.ofList new)

variable {s : Store} {new : Policy.Modules} {r : Replacement}

theorem stands_start (s : Store) (new : Policy.Modules) : Stands s new (start s new) :=
  .untouched rfl rfl rfl

/-- A module set is one module more of the new ones. -/
theorem ofList_snoc (done : Policy.Modules) (id source : String) :
    Fields.ofList (done ++ [(id, source)]) = Fields.insert id source (Fields.ofList done) := by
  simp only [Fields.ofList, List.foldl_append, List.foldl_cons, List.foldl_nil]

theorem Stands.advance (h : Stands s new r) : Stands s new (r.after .advance) := by
  cases h with
  | untouched left modules generation =>
    simp only [after, left]
    exact .filling [] new rfl rfl rfl generation
  | filling done rest split left modules generation =>
    cases rest with
    | nil =>
      simp only [after, left, fillSteps, List.map_nil, List.nil_append]
      rw [List.append_nil] at split
      exact .announced rfl (split ▸ modules)
    | cons entry rest =>
      obtain ⟨id, source⟩ := entry
      simp only [after, left, fillSteps, List.map_cons, List.cons_append]
      refine .filling (done ++ [(id, source)]) rest (by simp [split]) rfl ?_ generation
      rw [ofList_snoc, ← modules]
      rfl
  | announced left modules =>
    simp only [after, left]
    exact .announced left modules

theorem Stands.after (h : Stands s new r) (t : Turn) : Stands s new (r.after t) := by
  cases t with
  | advance => exact h.advance
  | prepare =>
    cases h with
    | untouched left modules generation => exact .untouched left modules generation
    | filling done rest split left modules generation =>
      exact .filling done rest split left modules generation
    | announced left modules => exact .announced left modules

theorem Stands.run (h : Stands s new r) (turns : List Turn) : Stands s new (r.run turns) := by
  induction turns generalizing r with
  | nil => exact h
  | cons t rest ih => exact ih (h.after t)

/-- What is there while sorted modules are set. -/
theorem Stands.modules (h : Stands s new r) (hnew : Fields.Sorted new) :
    r.store.modules = s.modules ∨ r.store.modules <+: new := by
  cases h with
  | untouched left modules generation => exact .inl modules
  | filling done rest split left modules generation =>
    have hdone : Fields.Sorted done := by
      rw [split, Fields.Sorted, List.map_append] at hnew
      exact (List.pairwise_append.1 hnew).1
    rw [modules, hdone.ofList_eq (.refl _)]
    exact .inr ⟨rest, split.symm⟩
  | announced left modules =>
    rw [modules, hnew.ofList_eq (.refl _)]
    exact .inr (List.prefix_refl _)

/-! ## What queries are compiled from -/

/-- A turn adds at most one module set to those that were compiled: the one that is there. -/
theorem mem_compiled_after {t : Turn} {m : Policy.Modules} (h : m ∈ (r.after t).compiled) :
    m ∈ r.compiled ∨ m = r.store.modules := by
  cases t with
  | advance =>
    simp only [Replacement.after] at h
    split at h <;> exact .inl h
  | prepare =>
    rcases List.mem_append.1 h with h | h
    · exact .inl h
    · exact .inr (List.mem_singleton.1 h)

/-- What turns compile from is there at some moment. -/
theorem exists_of_mem_compiled_run {turns : List Turn} {m : Policy.Modules}
    (h : m ∈ (r.run turns).compiled) :
    m ∈ r.compiled ∨ ∃ past later, turns = past ++ later ∧ m = (r.run past).store.modules := by
  induction turns generalizing r with
  | nil => exact .inl h
  | cons t rest ih =>
    rcases ih h with hafter | ⟨past, later, rfl, hm⟩
    · rcases mem_compiled_after hafter with hbefore | hnow
      · exact .inl hbefore
      · exact .inr ⟨[], t :: rest, rfl, hnow⟩
    · exact .inr ⟨t :: past, later, rfl, hm⟩

/-- Module by module the new ones are set. -/
theorem modules_run_replicate {done rest : Policy.Modules} (hleft : r.left = fillSteps rest)
    (hmodules : r.store.modules = Fields.ofList done) {set : Policy.Modules} (hset : set <+: rest) :
    (r.run (.replicate set.length .advance)).store.modules = Fields.ofList (done ++ set) := by
  induction set generalizing r done rest with
  | nil => simpa [run] using hmodules
  | cons entry set ih =>
    obtain ⟨later, rfl⟩ := hset
    obtain ⟨id, source⟩ := entry
    have hafter : r.after .advance = ⟨(r.store.step (.insert id source)).1, fillSteps (set ++ later),
        r.compiled⟩ := by
      simp only [Replacement.after, hleft, fillSteps, List.map_cons, List.cons_append]
    have hstep : (r.after .advance).store.modules = Fields.ofList (done ++ [(id, source)]) := by
      rw [ofList_snoc, ← hmodules, hafter]
      rfl
    have hrest := ih (by rw [hafter]) hstep (List.prefix_append set later)
    rw [List.append_assoc, List.singleton_append] at hrest
    exact hrest

/-- Queries can be compiled from the old modules and from every initial part of the new. -/
theorem exists_mem_compiled (s : Store) (hnew : Fields.Sorted new) {m : Policy.Modules}
    (h : m = s.modules ∨ m <+: new) : ∃ turns, m ∈ ((start s new).run turns).compiled := by
  have hprepare (turns : List Turn) (hm : ((start s new).run turns).store.modules = m) :
      m ∈ ((start s new).run (turns ++ [.prepare])).compiled := by
    rw [run_append]
    exact List.mem_append_right _ (hm ▸ List.mem_singleton_self _)
  rcases h with rfl | h
  · exact ⟨_, hprepare [] rfl⟩
  · have hsorted : Fields.Sorted m := List.Pairwise.sublist (h.sublist.map _) hnew
    refine ⟨_, hprepare (.advance :: .replicate m.length .advance) ?_⟩
    have hset : (((start s new).after .advance).run (.replicate m.length .advance)).store.modules =
        Fields.ofList ([] ++ m) := modules_run_replicate rfl rfl h
    rw [List.nil_append, hsorted.ofList_eq (.refl _)] at hset
    exact hset

/-- Once all is done nothing changes any more, and queries are compiled from what is there. -/
theorem compiled_of_left_eq_nil (hleft : r.left = []) (later : List Turn) :
    ∃ more, (r.run later).compiled = r.compiled ++ more ∧ ∀ m ∈ more, m = r.store.modules := by
  induction later generalizing r with
  | nil => exact ⟨[], (List.append_nil _).symm, fun m hm => absurd hm List.not_mem_nil⟩
  | cons t rest ih =>
    cases t with
    | advance =>
      have hstill : r.after .advance = r := by simp only [after, hleft]
      rw [run, List.foldl_cons, hstill]
      exact ih hleft
    | prepare =>
      obtain ⟨more, hmore, hall⟩ := ih (r := r.after .prepare) hleft
      have hrun : (r.run (.prepare :: rest)).compiled = r.compiled ++ r.store.modules :: more := by
        rw [List.append_cons]
        exact hmore
      exact ⟨r.store.modules :: more, hrun, List.forall_mem_cons.2 ⟨rfl, hall⟩⟩

/-- While the modules of a store are replaced, queries may be compiled from the old modules and from
    every initial part of the new ones, and from nothing else, whatever the turns. What is prepared
    after the announcement is compiled from all the new ones. -/
theorem compiled_iff (s : Store) (hnew : Fields.Sorted new) :
    (∀ m, (∃ turns, m ∈ ((start s new).run turns).compiled) ↔ m = s.modules ∨ m <+: new) ∧
      ∀ turns later, ((start s new).run turns).store.generation ≠ s.generation →
        ∃ more, ((start s new).run (turns ++ later)).compiled =
          ((start s new).run turns).compiled ++ more ∧ ∀ m ∈ more, m = new := by
  have hstands := (stands_start s new).run
  refine ⟨fun m => ⟨?_, exists_mem_compiled s hnew⟩, fun turns later hannounced => ?_⟩
  · rintro ⟨turns, hm⟩
    rcases exists_of_mem_compiled_run hm with hm | ⟨past, later, -, rfl⟩
    · exact absurd hm List.not_mem_nil
    · exact (hstands past).modules hnew
  · rw [run_append]
    cases hstands turns with
    | untouched left modules generation => exact absurd generation hannounced
    | filling done rest split left modules generation => exact absurd generation hannounced
    | announced left modules =>
      obtain ⟨more, hmore, hall⟩ := compiled_of_left_eq_nil left later
      rw [hnew.ofList_eq (.refl _)] at modules
      exact ⟨more, hmore, modules ▸ hall⟩

/-! ## A policy that was never installed -/

/-- Whether the interpreter of the policy language lets a request pass that says nothing, by the
    query compiled from modules. -/
def allows (modules : Policy.Modules) : Bool :=
  let decision := do
    let q ← CompiledQuery.compile Rego.interpreter modules (.ofPath Config.defaultPath)
    q.decide Rego.interpreter (.object []) (.object [])
  decision.toOption.join.bind Json.asBool? == some true

/-- A policy that lets nobody pass. -/
def closedPolicy : Policy.Modules :=
  [("authz.rego", "package envoy.authz\ndefault allow := false")]

/-- A policy that lets all pass whom its second module does not block, which blocks everyone. -/
def blockingPolicy : Policy.Modules := [
  ("authz.rego",
    "package envoy.authz\nimport rego.v1\ndefault allow := false\nallow if not data.blocked.everyone"),
  ("blocked.rego", "package blocked\neveryone := true")]

/-- While a policy takes the place of another that denies just as well. -/
theorem compiled_iff_blocking :
    Fields.Sorted blockingPolicy ∧
      ∀ m, (∃ turns, m ∈ ((start { modules := closedPolicy } blockingPolicy).run turns).compiled) ↔
        m = closedPolicy ∨ m <+: blockingPolicy := by
  have hsorted : Fields.Sorted blockingPolicy := by
    simp only [Fields.Sorted, blockingPolicy]
    decide +kernel
  exact ⟨hsorted, (compiled_iff { modules := closedPolicy } hsorted).1⟩

/-- A query that is prepared between the two modules lets pass what both policies deny: it is
    compiled from modules that are neither the old nor the new ones. -/
theorem compiled_partial :
    let r := (start { modules := closedPolicy } blockingPolicy).run
      [.advance, .advance, .prepare, .advance, .advance]
    r.store.modules = blockingPolicy ∧ allows closedPolicy = false ∧ allows blockingPolicy = false ∧
      ∃ m ∈ r.compiled, m ≠ closedPolicy ∧ m ≠ blockingPolicy ∧ allows m = true := by
  intro r
  refine ⟨by decide +kernel, by decide +kernel, by decide +kernel, blockingPolicy.take 1, ?_⟩
  refine ⟨by decide +kernel, by decide +kernel, by decide +kernel, by decide +kernel⟩

end Replacement

end AuthGate.Store
