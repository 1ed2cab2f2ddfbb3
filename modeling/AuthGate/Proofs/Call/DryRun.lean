import AuthGate.Proofs.Call.Findings

set_option autoImplicit false

/-! # Dry runs

A dry run differs from the run it stands for in nothing but the response. Two calls that differ only
in whether they are dry runs are followed side by side: what one step of both keeps is
`step_paired`, what any number of steps keeps is `steps_paired`. The main statement is
`check_dryRun`. -/

namespace AuthGate

/-- The settings with dry runs switched on or off. -/
def Config.Resolved.withDryRun (conf : Config.Resolved) (dryRun : Bool) : Config.Resolved :=
  { conf with config := { conf.config with dryRun } }

@[simp] theorem Config.Resolved.dryRun_withDryRun (conf : Config.Resolved) (dryRun : Bool) :
    (conf.withDryRun dryRun).config.dryRun = dryRun :=
  rfl

/-- The entry that was sent to the logger, and the answer. -/
@[simp] def CallEvent.logging : CallEvent → Option (AuditEntry × Except Failure Unit)
  | .logged e r => some (e, r)
  | .identified _ | .opened _ | .closed .. => none

namespace Pipeline

variable {σ ρ : Type} {conf : Config.Resolved} {c : Collaborators σ ρ} {call : CallInput}
  {s : Shared σ ρ}

/-! ## What does not depend on dry runs -/

@[simp] theorem aborts_map (f : CheckResponse → CheckResponse)
    (r : Except Failure CheckResponse) : aborts (r.map f) = aborts r := by
  simp only [aborts, errorOf_map]

@[simp] theorem entry_map (f : CheckResponse → CheckResponse) (ctx : CallContext)
    (t : Transaction) (input : Option Json) (r : Except Failure CheckResponse)
    (metrics : List (String × Nat)) :
    entry conf ctx t input (r.map f) metrics = entry conf ctx t input r metrics := by
  simp only [entry, errorOf_map]

theorem entry_withDryRun (dryRun : Bool) : entry (conf.withDryRun dryRun) = entry conf :=
  rfl

theorem decide_withDryRun (dryRun : Bool) (ctx : CallContext) (t : Transaction) :
    decide (conf.withDryRun dryRun) c call ctx t s = decide conf c call ctx t s :=
  rfl

/-! ## What a response was made of -/

/-- The response, if there is one, was made of the decision. -/
def MadeOf {ε : Type} (decision : Option Json) (result : Except ε CheckResponse) : Prop :=
  ∀ r, result = .ok r → ∃ d, decision = some d ∧ (Decision.ofJson d).shape = .ok r

theorem madeOf_error {ε : Type} {decision : Option Json} {e : ε} :
    MadeOf decision (.error e) := by
  intro r h
  cases h

theorem madeOf_conclude (ctx : CallContext) (input : Json) (e : Evaluation) :
    MadeOf (conclude ctx input e).ctx.decision (conclude ctx input e).result := by
  simp only [conclude]
  split
  · exact madeOf_error
  split
  · exact madeOf_error
  · intro r h
    exact ⟨_, rfl, mapError_eq_ok_iff.1 h⟩

theorem madeOf_decide (conf : Config.Resolved) (c : Collaborators σ ρ) (call : CallInput)
    (ctx : CallContext) (t : Transaction) (s : Shared σ ρ) :
    MadeOf (decide conf c call ctx t s).1.ctx.decision (decide conf c call ctx t s).1.result := by
  simp only [decide]
  split
  · exact madeOf_error
  split
  · exact madeOf_error
  split
  · exact madeOf_error
  split
  · exact madeOf_error
  simp only [runQuery]
  split
  · exact madeOf_error
  split
  · exact madeOf_error
  · exact madeOf_conclude _ _ _

/-! ## Side by side -/

/-- What the logger was sent, and what it answered. -/
def loggings (record : List CallEvent) : List (AuditEntry × Except Failure Unit) :=
  record.filterMap CallEvent.logging

theorem loggings_append (record more : List CallEvent) :
    loggings (record ++ more) = loggings record ++ loggings more := List.filterMap_append

/-- A call and its dry run where they stand after the same steps, with the record of either. -/
inductive Paired (record : List CallEvent) : Phase → Phase → Prop
  | arrived {began : Nat} (silent : loggings record = []) :
    Paired record (.arrived began) (.arrived began)
  | begun {ctx : CallContext} (silent : loggings record = []) :
    Paired record (.begun ctx) (.begun ctx)
  | opened {ctx : CallContext} {t : Transaction} (silent : loggings record = []) :
    Paired record (.opened ctx t) (.opened ctx t)
  | evaluated {ctx : CallContext} {t : Transaction} {input : Option Json}
      {result : Except Failure CheckResponse} (silent : loggings record = [])
      (made : MadeOf ctx.decision result) :
    Paired record (.evaluated ctx t input result)
      (.evaluated ctx t input (result.map CheckResponse.dryRun))
  | logged {ctx : CallContext} {t : Transaction} {result : Except Failure CheckResponse}
      {e : AuditEntry} {logged : Except Failure Unit} (sent : loggings record = [(e, logged)])
      (made : MadeOf e.result result) :
    Paired record (.logged ctx t result logged)
      (.logged ctx t (result.map CheckResponse.dryRun) logged)
  | failed {f : Failure} :
    Paired record (.done (.answered (.error f))) (.done (.answered (.error f)))
  | crashed {cause : String} : Paired record (.done (.crashed cause)) (.done (.crashed cause))
  | answered {e : AuditEntry} {logged : Except Failure Unit} {d : Json} {r : CheckResponse}
      (sent : loggings record = [(e, logged)]) (decided : e.result = some d)
      (shaped : (Decision.ofJson d).shape = .ok r) :
    Paired record (.done (.answered (.ok (override logged r))))
      (.done (.answered (.ok (override logged r.dryRun))))

/-- A step of a call and of its dry run do the same to what is shared, ask the same, and leave the
    two side by side. -/
theorem step_paired (conf : Config.Resolved) (c : Collaborators σ ρ) (call : CallInput)
    {record : List CallEvent} {p p' : Phase} (h : Paired record p p') (s : Shared σ ρ) :
    (step (conf.withDryRun true) c call p' s).2 = (step (conf.withDryRun false) c call p s).2 ∧
      eventsOf (conf.withDryRun true) c p' s = eventsOf (conf.withDryRun false) c p s ∧
      Paired (record ++ eventsOf (conf.withDryRun false) c p s)
        (step (conf.withDryRun false) c call p s).1
        (step (conf.withDryRun true) c call p' s).1 := by
  cases h with
  | arrived silent =>
    have hsilent : loggings (record ++ [.identified (c.nextId s.world).1]) = [] := by
      rw [loggings_append, silent]
      rfl
    refine ⟨rfl, rfl, ?_⟩
    simp only [step, start, eventsOf]
    split
    · exact .failed
    · exact .begun hsilent
  | begun silent =>
    have hsilent : loggings (record ++ [.opened (c.openTransaction s.world).1]) = [] := by
      rw [loggings_append, silent]
      rfl
    refine ⟨rfl, rfl, ?_⟩
    simp only [step, openTransaction, eventsOf]
    split
    · exact .failed
    · exact .opened hsilent
  | @opened ctx t silent =>
    have hmade := madeOf_decide conf c call ctx t s
    simp only [step, evaluate, decide_withDryRun, Config.Resolved.dryRun_withDryRun,
      Bool.false_eq_true, if_true, if_false, eventsOf, List.append_nil, true_and]
    rcases hdecide : decide conf c call ctx t s with ⟨⟨ctx', input, (f | cause) | r⟩, s'⟩
    · exact ⟨rfl, .evaluated silent madeOf_error⟩
    · exact ⟨rfl, .crashed⟩
    · rw [hdecide] at hmade
      refine ⟨rfl, .evaluated silent fun r' h => ?_⟩
      obtain rfl : r = r' := Except.ok.inj h
      exact hmade r rfl
  | @evaluated ctx t input result silent made =>
    cases hstop : ctx.timers.stopAll (c.now s.world) with
    | none =>
      simp only [step, log, eventsOf, hstop, true_and]
      exact .crashed
    | some timers =>
      simp only [step, log, eventsOf, hstop, entry_map, entry_withDryRun, true_and]
      let e := entry conf ctx t input result timers.all
      have hsent : loggings (record ++ [.logged e (c.log e s.world).1]) =
          [(e, (c.log e s.world).1)] := by
        rw [loggings_append, silent]
        rfl
      exact .logged hsent made
  | @logged ctx t result e logged sent made =>
    simp only [step, finish, eventsOf, aborts_map, true_and]
    let closed := (c.closeTransaction t (aborts result) s.world).1
    have hsent : loggings (record ++ [.closed t (aborts result) closed]) = [(e, logged)] := by
      rw [loggings_append, sent]
      rfl
    cases result with
    | error f => exact .failed
    | ok r =>
      obtain ⟨d, hdecided, hshape⟩ := made r rfl
      exact .answered hsent hdecided hshape
  | failed => exact ⟨rfl, rfl, .failed⟩
  | crashed => exact ⟨rfl, rfl, .crashed⟩
  | answered sent decided shaped =>
    refine ⟨rfl, rfl, ?_⟩
    simp only [step, eventsOf, List.append_nil]
    exact .answered sent decided shaped

/-- What any number of steps of a call and of its dry run keep. -/
theorem steps_paired (conf : Config.Resolved) (c : Collaborators σ ρ) (call : CallInput) (n : Nat)
    {record : List CallEvent} {p p' : Phase} (h : Paired record p p') (s : Shared σ ρ) :
    (steps (conf.withDryRun true) c call n p' s).2 =
        (steps (conf.withDryRun false) c call n p s).2 ∧
      eventsOfSteps (conf.withDryRun true) c call n p' s =
        eventsOfSteps (conf.withDryRun false) c call n p s ∧
      Paired (record ++ eventsOfSteps (conf.withDryRun false) c call n p s)
        (steps (conf.withDryRun false) c call n p s).1
        (steps (conf.withDryRun true) c call n p' s).1 := by
  induction n generalizing record p p' s with
  | zero =>
    refine ⟨rfl, rfl, ?_⟩
    simp only [eventsOfSteps, List.append_nil]
    exact h
  | succ n ih =>
    obtain ⟨hstate, hevents, hpaired⟩ := step_paired conf c call h s
    simp only [steps_succ, eventsOfSteps, hstate, hevents, ← List.append_assoc]
    obtain ⟨hstate', hevents', hpaired'⟩ := ih hpaired (step (conf.withDryRun false) c call p s).2
    exact ⟨hstate', congrArg _ hevents', hpaired'⟩

/-! ## The response -/

/-- How a call and its dry run are answered if the decision was made into a response `r`, by what
    the logger answered. -/
inductive Rehearsal (r : CheckResponse) :
    Except Failure Unit → CheckResponse → CheckResponse → Prop
  | unlogged (f : Failure) :
    Rehearsal r (.error f) { r with status := some (.of .unknown f.text) }
      { r.dryRun with status := some (.of .unknown f.text) }
  | allowed (h : r.isOk = true) : Rehearsal r (.ok ()) r r
  | denied (h : r.isOk = false) :
    Rehearsal r (.ok ()) r
      { status := some (.of .ok ""), http := some (.ok {}), dynamicMetadata := r.dynamicMetadata }

theorem rehearsal_override (r : CheckResponse) (logged : Except Failure Unit) :
    Rehearsal r logged (override logged r) (override logged r.dryRun) := by
  cases logged with
  | error f => exact .unlogged f
  | ok u =>
    simp only [override, errorOf]
    cases h : r.isOk with
    | true =>
      simp only [CheckResponse.dryRun, h, if_true]
      exact .allowed h
    | false =>
      simp only [CheckResponse.dryRun, h, Bool.false_eq_true, if_false]
      exact .denied h

/-- How a call and its dry run end, with what either asked of the engine and of the others. They
    break off only if the engine does. -/
inductive Rehearsed (events : List (EngineEvent ρ)) (record : List CallEvent) :
    Outcome → Outcome → Prop
  | crashed {cause : String} (broke : crashIn events = some cause) :
    Rehearsed events record (.crashed cause) (.crashed cause)
  | failed (f : Failure) :
    Rehearsed events record (.answered (.error f)) (.answered (.error f))
  | answered {e : AuditEntry} {logged : Except Failure Unit} {d : Json} {r off on : CheckResponse}
      (sent : loggings record = [(e, logged)]) (decided : e.result = some d)
      (shaped : (Decision.ofJson d).shape = .ok r) (rehearsal : Rehearsal r logged off on) :
    Rehearsed events record (.answered (.ok off)) (.answered (.ok on))

theorem rehearsed_of_paired {events : List (EngineEvent ρ)} {record : List CallEvent}
    {p p' : Phase} (h : Paired record p p')
    (hcrash : ∀ cause, Phase.outcome p = .crashed cause → crashIn events = some cause) :
    Rehearsed events record (Phase.outcome p) (Phase.outcome p') := by
  cases h with
  | failed => exact .failed _
  | answered sent decided shaped =>
    exact .answered sent decided shaped (rehearsal_override _ _)
  | arrived | begun | opened | evaluated | logged | crashed => exact .crashed (hcrash _ rfl)

/-- A dry run asks the same of the store, the engine and the logger as the run it stands for, and
    leaves the same behind. Both fail alike, or the responses differ as a rehearsal does. -/
theorem check_dryRun (conf : Config.Resolved) (c : Collaborators σ ρ) (call : CallInput)
    (s : Shared σ ρ) :
    let off := conf.withDryRun false
    let on := conf.withDryRun true
    (check on c call s).2 = (check off c call s).2 ∧
      recordOf on c call s = recordOf off c call s ∧
      engineRecordOf on c call s = engineRecordOf off c call s ∧
      Rehearsed (engineRecordOf off c call s) (recordOf off c call s)
        (check off c call s).1 (check on c call s).1 := by
  have harrived : Paired [] (.arrived (c.now s.world)) (.arrived (c.now s.world)) := .arrived rfl
  obtain ⟨hstate, hevents, hends⟩ := steps_paired conf c call 5 harrived s
  have hwatched := steps_paired conf c.watched call 5 harrived (s.watching [])
  simp only [recordOf_eq]
  exact ⟨hstate, hevents, congrArg (·.world.2) hwatched.1,
    rehearsed_of_paired hends fun _ h => crashIn_of_check h⟩

end Pipeline

end AuthGate
