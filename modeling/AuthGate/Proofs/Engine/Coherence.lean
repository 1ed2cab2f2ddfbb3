import AuthGate.Engine.Query
import AuthGate.Proofs.Call.Record
import AuthGate.Proofs.Call.Stages

set_option autoImplicit false

/-! # Calls over an up-to-date cache

The compiled query in use is up to date if compiling the modules of the store again would give the
same. Two calls that find up-to-date caches, be they empty or not, and the same modules and data, go
alike: `step_alike` says so of a step, `check_alike` of whole calls. Only the numbers of their
transactions may differ. -/

namespace AuthGate

variable {σ ε : Type}

/-- The compiled query in use is what compiling the modules of the store would give. -/
def UpToDate (i : Interpreter ε) (e : EntryPoint) (s : Shared (World σ) (CompiledQuery ε)) : Prop :=
  ∀ q, s.cache.slot s.cache.epoch = .ready q →
    CompiledQuery.compile i s.world.store.modules e = .ok q

/-- A call is given the query that compiling the modules of the store gives, wherever it comes from;
    the cache is up to date afterwards, and nothing but it has changed. -/
theorem UpToDate.prepared_eq {i : Interpreter ε} {e : EntryPoint}
    {s : Shared (World σ) (CompiledQuery ε)} (h : UpToDate i e s) (c : Surroundings σ) :
    ∃ cache, Pipeline.prepared (c.collaborators i) e s =
        (CompiledQuery.compile i s.world.store.modules e, { s with cache }) ∧
      UpToDate i e { s with cache } := by
  have hcompiled : UpToDate i e { s with
      cache := (s.cache.put s.cache.epoch .compiling).finish s.cache.epoch
        (CompiledQuery.compile i s.world.store.modules e) } := by
    intro q hq
    simp only [QueryCache.epoch_finish, QueryCache.epoch_put] at hq
    -- the slot in use is not empty, so that it exists and holds what was compiled
    have hlt := QueryCache.lt_length_of_slot_ne_empty (by rw [hq]; simp)
    rw [QueryCache.length_finish] at hlt
    simpa [QueryCache.slot_finish hlt] using hq
  cases hslot : s.cache.slot s.cache.epoch with
  | ready q =>
    refine ⟨s.cache, ?_, h⟩
    simp only [Pipeline.prepared, QueryCache.getOrCompile, hslot, h q hslot]
  | empty =>
    refine ⟨_, ?_, hcompiled⟩
    simp only [Pipeline.prepared, QueryCache.getOrCompile, hslot]
    rfl
  | compiling =>
    refine ⟨_, ?_, hcompiled⟩
    simp only [Pipeline.prepared, QueryCache.getOrCompile, hslot]
    rfl

/-! ## States that agree -/

/-- What the logger answers does not depend on the number of the transaction. -/
def Surroundings.IgnoresNumber (c : Surroundings σ) : Prop :=
  ∀ (e : AuditEntry) (n : Option Nat) (w : σ),
    (c.log { e with transaction := n } w).1 = (c.log e w).1

/-- Two numbers of transactions between which the logger sees no difference. -/
def Surroundings.SameNumber (c : Surroundings σ) (m n : Nat) : Prop := m = n ∨ c.IgnoresNumber

/-- Two states with the same modules and data, and up-to-date caches. -/
structure Agree (i : Interpreter ε) (e : EntryPoint) (s s' : Shared (World σ) (CompiledQuery ε)) :
    Prop where
  outside : s.world.outside = s'.world.outside
  modules : s.world.store.modules = s'.world.store.modules
  data : s.world.store.data = s'.world.store.data
  upToDate : UpToDate i e s
  upToDate' : UpToDate i e s'

/-- Two calls that stand at the same place and will go on alike. Once the entry is logged, the
    states do not matter any more. -/
inductive Alike (c : Surroundings σ) (i : Interpreter ε) (e : EntryPoint) :
    Phase → Shared (World σ) (CompiledQuery ε) → Phase → Shared (World σ) (CompiledQuery ε) → Prop
  | arrived {began : Nat} {s s' : Shared (World σ) (CompiledQuery ε)} (agree : Agree i e s s')
      (number : c.SameNumber s.world.store.nextId s'.world.store.nextId) :
    Alike c i e (.arrived began) s (.arrived began) s'
  | begun {ctx : CallContext} {s s' : Shared (World σ) (CompiledQuery ε)} (agree : Agree i e s s')
      (number : c.SameNumber s.world.store.nextId s'.world.store.nextId) :
    Alike c i e (.begun ctx) s (.begun ctx) s'
  | opened {ctx : CallContext} {t t' : Transaction} {s s' : Shared (World σ) (CompiledQuery ε)}
      (agree : Agree i e s s') (data : t.data = t'.data) (number : c.SameNumber t.id t'.id) :
    Alike c i e (.opened ctx t) s (.opened ctx t') s'
  | evaluated {ctx : CallContext} {t t' : Transaction} {input : Option Json}
      {result : Except Failure CheckResponse} {s s' : Shared (World σ) (CompiledQuery ε)}
      (agree : Agree i e s s') (number : c.SameNumber t.id t'.id) :
    Alike c i e (.evaluated ctx t input result) s (.evaluated ctx t' input result) s'
  | logged {ctx : CallContext} {t t' : Transaction} {result : Except Failure CheckResponse}
      {logged : Except Failure Unit} {s s' : Shared (World σ) (CompiledQuery ε)} :
    Alike c i e (.logged ctx t result logged) s (.logged ctx t' result logged) s'
  | done {o : Outcome} {s s' : Shared (World σ) (CompiledQuery ε)} :
    Alike c i e (.done o) s (.done o) s'

/-- An entry without the number of its transaction. -/
def AuditEntry.unnumbered (e : AuditEntry) : AuditEntry := { e with transaction := none }

/-- The entries of a record, without the numbers of their transactions. -/
def unnumberedEntries (record : List CallEvent) : List AuditEntry :=
  (record.filterMap CallEvent.entry).map AuditEntry.unnumbered

/-! ## Steps -/

namespace Pipeline

variable {c : Surroundings σ} {i : Interpreter ε} {conf : Config.Resolved} {call : CallInput}
  {s s' : Shared (World σ) (CompiledQuery ε)}

theorem now_eq_of_agree {e : EntryPoint} (h : Agree i e s s') :
    (c.collaborators i).now s.world = (c.collaborators i).now s'.world := by
  simp only [Collaborators.now, Surroundings.collaborators, h.outside]

/-- The query is evaluated alike on transactions with the same data. -/
theorem runQuery_agree (h : Agree i conf.entryPoint s s') {t t' : Transaction}
    (hdata : t.data = t'.data) (ctx : CallContext) (input value : Json) :
    (runQuery (c.collaborators i) conf.entryPoint ctx t input value s).1 =
      (runQuery (c.collaborators i) conf.entryPoint ctx t' input value s').1 ∧
    Agree i conf.entryPoint (runQuery (c.collaborators i) conf.entryPoint ctx t input value s).2
      (runQuery (c.collaborators i) conf.entryPoint ctx t' input value s').2 := by
  obtain ⟨cache, hprepared, hupToDate⟩ := h.upToDate.prepared_eq c
  obtain ⟨cache', hprepared', hupToDate'⟩ := h.upToDate'.prepared_eq c
  have hafter : Agree i conf.entryPoint { s with cache } { s' with cache := cache' } :=
    ⟨h.outside, h.modules, h.data, hupToDate, hupToDate'⟩
  simp only [runQuery, hprepared, hprepared', ← h.modules]
  cases CompiledQuery.compile i s.world.store.modules conf.entryPoint with
  | error f => exact ⟨rfl, hafter⟩
  | ok q =>
    have hevaluate : q.evaluate i value t 0 = q.evaluate i value t' 0 := by
      simp only [CompiledQuery.evaluate, hdata]
    simp only [Surroundings.collaborators, hevaluate]
    cases (q.evaluate i value t' 0).mapError Stop.failed with
    | error stop => exact ⟨rfl, hafter⟩
    | ok evaluation => exact ⟨rfl, hafter⟩

/-- A call is decided alike. -/
theorem decide_agree (call : CallInput) (h : Agree i conf.entryPoint s s') {t t' : Transaction}
    (hdata : t.data = t'.data) (ctx : CallContext) :
    (decide conf (c.collaborators i) call ctx t s).1 =
      (decide conf (c.collaborators i) call ctx t' s').1 ∧
    Agree i conf.entryPoint (decide conf (c.collaborators i) call ctx t s).2
      (decide conf (c.collaborators i) call ctx t' s').2 := by
  have hnow := now_eq_of_agree (c := c) h
  have hlate : isLate (c.collaborators i) call s = isLate (c.collaborators i) call s' := by
    simp only [isLate, hnow]
  simp only [decide, hlate, hnow]
  split
  · exact ⟨rfl, h⟩
  split
  · exact ⟨rfl, h⟩
  split
  · exact ⟨rfl, h⟩
  split
  · exact ⟨rfl, h⟩
  · exact runQuery_agree h hdata _ _ _

/-- Calls that stand at the same place take the same step, and leave the same entry if any. -/
theorem step_alike (call : CallInput) {p p' : Phase}
    (h : Alike c i conf.entryPoint p s p' s') :
    Alike c i conf.entryPoint (step conf (c.collaborators i) call p s).1
      (step conf (c.collaborators i) call p s).2 (step conf (c.collaborators i) call p' s').1
      (step conf (c.collaborators i) call p' s').2 ∧
    unnumberedEntries (eventsOf conf (c.collaborators i) p s) =
      unnumberedEntries (eventsOf conf (c.collaborators i) p' s') := by
  cases h with
  | @arrived began s s' agree number =>
    refine ⟨?_, rfl⟩
    have hnow := now_eq_of_agree (c := c) agree
    simp only [Pipeline.step, start, hnow]
    simp only [Surroundings.collaborators, agree.outside]
    cases (c.nextId s'.world.outside).1 with
    | error f => exact .done
    | ok id =>
      exact .begun ⟨rfl, agree.modules, agree.data, agree.upToDate, agree.upToDate'⟩ number
  | @begun ctx s s' agree number =>
    refine ⟨.opened ?_ agree.data number, rfl⟩
    exact ⟨agree.outside, agree.modules, agree.data, agree.upToDate, agree.upToDate'⟩
  | @opened ctx t t' s s' agree data number =>
    refine ⟨?_, rfl⟩
    have hdecided := decide_agree (c := c) call agree data ctx
    simp only [Pipeline.step, evaluate]
    generalize decide conf (c.collaborators i) call ctx t s = r at hdecided ⊢
    generalize decide conf (c.collaborators i) call ctx t' s' = r' at hdecided ⊢
    obtain ⟨e, after⟩ := r
    obtain ⟨e', after'⟩ := r'
    obtain ⟨hresult, hafter⟩ := hdecided
    obtain rfl : e = e' := hresult
    dsimp only
    split
    · exact .done
    · exact .evaluated hafter number
    · exact .evaluated hafter number
  | @evaluated ctx t t' input result s s' agree number =>
    have hnow := now_eq_of_agree (c := c) agree
    cases hstop : ctx.timers.stopAll ((c.collaborators i).now s'.world) with
    | none =>
      simp only [Pipeline.step, log, eventsOf, hnow, hstop, and_true]
      exact .done
    | some timers =>
      -- only here the numbers show: the entry names the transaction
      have hlog : (c.log (entry conf ctx t input result timers.all) s.world.outside).1 =
          (c.log (entry conf ctx t' input result timers.all) s'.world.outside).1 := by
        rw [agree.outside]
        rcases number with hid | hignores
        · simp only [entry, hid]
        · exact (hignores (entry conf ctx t' input result timers.all) (some t.id) _)
      simp only [Pipeline.step, log, eventsOf, hnow, hstop]
      simp only [Surroundings.collaborators, hlog]
      exact ⟨.logged, rfl⟩
  | logged => exact ⟨.done, rfl⟩
  | done => exact ⟨.done, rfl⟩

theorem unnumberedEntries_append (record more : List CallEvent) :
    unnumberedEntries (record ++ more) = unnumberedEntries record ++ unnumberedEntries more := by
  simp only [unnumberedEntries, List.filterMap_append, List.map_append]

theorem steps_alike (call : CallInput) (n : Nat) {p p' : Phase}
    (h : Alike c i conf.entryPoint p s p' s') :
    Alike c i conf.entryPoint (steps conf (c.collaborators i) call n p s).1
      (steps conf (c.collaborators i) call n p s).2
      (steps conf (c.collaborators i) call n p' s').1
      (steps conf (c.collaborators i) call n p' s').2 ∧
    unnumberedEntries (eventsOfSteps conf (c.collaborators i) call n p s) =
      unnumberedEntries (eventsOfSteps conf (c.collaborators i) call n p' s') := by
  induction n generalizing p p' s s' with
  | zero => exact ⟨h, rfl⟩
  | succ n ih =>
    obtain ⟨hstep, hentries⟩ := step_alike call h
    obtain ⟨hsteps, hrest⟩ := ih hstep
    refine ⟨hsteps, ?_⟩
    simp only [eventsOfSteps, unnumberedEntries_append, hentries, hrest]

theorem outcome_eq_of_alike {e : EntryPoint} {p p' : Phase} (h : Alike c i e p s p' s') :
    Phase.outcome p = Phase.outcome p' := by
  cases h <;> rfl

/-- Whole calls on states that agree have the same outcome and leave the same entries. -/
theorem check_alike (h : Agree i conf.entryPoint s s')
    (hnumber : c.SameNumber s.world.store.nextId s'.world.store.nextId) :
    (check conf (c.collaborators i) call s).1 = (check conf (c.collaborators i) call s').1 ∧
    unnumberedEntries (recordOf conf (c.collaborators i) call s) =
      unnumberedEntries (recordOf conf (c.collaborators i) call s') := by
  rw [recordOf_eq, recordOf_eq, check, check, now_eq_of_agree h]
  obtain ⟨hend, hentries⟩ := steps_alike call 5 (.arrived h hnumber)
  exact ⟨outcome_eq_of_alike hend, hentries⟩

/-! ## What a call leaves behind -/

/-- A state with the policy of another one and an up-to-date cache. -/
structure SamePolicy (i : Interpreter ε) (e : EntryPoint)
    (s s' : Shared (World σ) (CompiledQuery ε)) : Prop where
  modules : s'.world.store.modules = s.world.store.modules
  triggers : s'.world.store.triggers = s.world.store.triggers
  upToDate : UpToDate i e s'

theorem SamePolicy.trans {e : EntryPoint} {s₁ s₂ s₃ : Shared (World σ) (CompiledQuery ε)}
    (h : SamePolicy i e s₁ s₂) (h' : SamePolicy i e s₂ s₃) : SamePolicy i e s₁ s₃ where
  modules := h'.modules.trans h.modules
  triggers := h'.triggers.trans h.triggers
  upToDate := h'.upToDate

theorem runQuery_samePolicy {e : EntryPoint} (c : Surroundings σ) (h : UpToDate i e s)
    (ctx : CallContext) (t : Transaction) (input value : Json) :
    SamePolicy i e s (runQuery (c.collaborators i) e ctx t input value s).2 := by
  obtain ⟨cache, hprepared, hupToDate⟩ := h.prepared_eq c
  simp only [runQuery, hprepared]
  cases CompiledQuery.compile i s.world.store.modules e with
  | error f => exact ⟨rfl, rfl, hupToDate⟩
  | ok q =>
    dsimp only
    split <;> exact ⟨rfl, rfl, hupToDate⟩

theorem decide_samePolicy (c : Surroundings σ) (call : CallInput)
    (h : UpToDate i conf.entryPoint s) (ctx : CallContext) (t : Transaction) :
    SamePolicy i conf.entryPoint s (decide conf (c.collaborators i) call ctx t s).2 := by
  rcases decide_snd_cases conf (c.collaborators i) call ctx t s with
    hsame | ⟨ctx', input, value, hran⟩
  · rw [hsame]
    exact ⟨rfl, rfl, h⟩
  · rw [hran]
    exact runQuery_samePolicy c h ctx' t input value

theorem step_samePolicy (c : Surroundings σ) (call : CallInput)
    (h : UpToDate i conf.entryPoint s) (p : Phase) :
    SamePolicy i conf.entryPoint s (step conf (c.collaborators i) call p s).2 := by
  cases p with
  | arrived began =>
    simp only [step, start]
    split <;> exact ⟨rfl, rfl, h⟩
  | begun ctx => exact ⟨rfl, rfl, h⟩
  | opened ctx t =>
    have hdecide := decide_samePolicy c call h ctx t
    simp only [step, evaluate]
    split <;> exact hdecide
  | evaluated ctx t input result =>
    simp only [step, log]
    split <;> exact ⟨rfl, rfl, h⟩
  | logged ctx t result logged =>
    simp only [step, finish, Surroundings.collaborators, Store.close]
    by_cases hopen : s.world.store.opened.contains t.id = true
    · simp only [hopen, if_true]
      cases aborts result <;> exact ⟨rfl, rfl, h⟩
    · simp only [hopen]
      exact ⟨rfl, rfl, h⟩
  | done o => exact ⟨rfl, rfl, h⟩

/-- A call changes neither the modules nor the triggers, and leaves an up-to-date cache. -/
theorem check_samePolicy (c : Surroundings σ) (call : CallInput)
    (h : UpToDate i conf.entryPoint s) :
    SamePolicy i conf.entryPoint s (check conf (c.collaborators i) call s).2 := by
  suffices hsteps : ∀ n p s, UpToDate i conf.entryPoint s →
      SamePolicy i conf.entryPoint s (steps conf (c.collaborators i) call n p s).2 from
    hsteps 5 (.arrived ((c.collaborators i).now s.world)) s h
  -- the state is general, since every step leaves another one to go on from
  intro n
  induction n with
  | zero => exact fun p s h => ⟨rfl, rfl, h⟩
  | succ n ih =>
    intro p s h
    have hstep := step_samePolicy c call h p
    exact hstep.trans (ih _ _ hstep.upToDate)

end Pipeline

end AuthGate
