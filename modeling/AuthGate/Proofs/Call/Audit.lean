import AuthGate.Proofs.Call.DryRun
import AuthGate.Proofs.Call.Findings
import AuthGate.Proofs.Config.Resolve

set_option autoImplicit false

/-! # The audit entry tells the truth

A call that has opened a transaction leaves one entry, unless the engine breaks off. What the entry
says is what happened: each of its fields is compared with what the collaborators answered and with
what the caller is given. The main statement is `entry_truthful`. -/

namespace AuthGate.Pipeline

variable {σ ρ : Type} {conf : Config.Resolved} {c : Collaborators σ ρ} {call : CallInput}
  {s : Shared σ ρ}

/-- The entries that a call sends to the logger. -/
def entriesOf (conf : Config.Resolved) (c : Collaborators σ ρ) (call : CallInput)
    (s : Shared σ ρ) : List AuditEntry :=
  (recordOf conf c call s).filterMap CallEvent.entry

/-- What an entry says is true of a call that was answered with `answer`: `opened` is the state in
    which the call had just opened its transaction, and `events` what it asked of the engine. -/
structure Truthful (conf : Config.Resolved) (c : Collaborators σ ρ) (call : CallInput)
    (opened : Shared σ ρ) (events : List (EngineEvent ρ)) (answer : Except Failure CheckResponse)
    (e : AuditEntry) : Prop where
  /-- The input is there if the call was in time and an input could be built. -/
  input : e.input = builtInput? conf c call opened
  /-- The decision is the one that the engine made. -/
  result : e.result = (evaluationIn events).bind (·.decision)
  builtinResults : e.builtinResults = (evaluationIn events).bind (·.builtinResults)
  /-- The error is the one that the caller is given. -/
  error : e.error = (errorOf answer).map (·.text)
  metrics (name : String) : name ∈ e.metrics.map (·.1) ↔
    name = handlerTimer ∨ (isLate c call opened = false ∧ name = inputTimer) ∨
      ∃ v, evaluationIn events = some v ∧ name ∈ v.metrics.entries.map (·.1)
  /-- The entry point is named by its path or by its query. -/
  entryPoint : e.path.isSome = !e.query.isSome

/-! ## The one entry -/

/-- What a call that has opened a transaction asks besides the engine. -/
theorem recordOf_of_opened {id : String} {t : Transaction} {w₁ w₂ : σ}
    (hid : c.nextId s.world = (.ok id, w₁)) (hopened : c.openTransaction w₁ = (.ok t, w₂)) :
    recordOf conf c call s =
      let evaluated := evaluate conf c call (newContext c (c.now s.world) s id w₁) t
        { s with world := w₂ }
      .identified (.ok id) :: .opened (.ok t) ::
        eventsOfSteps conf c call 2 evaluated.1 evaluated.2 := by
  simp only [recordOf_eq, eventsOfSteps, step_arrived_of_identified hid,
    step_begun_of_opened hopened, eventsOf, hid, hopened, List.nil_append, List.singleton_append]
  rfl

/-- The last two steps of a call leave one entry. -/
theorem entries_of_stopped (conf : Config.Resolved) (call : CallInput) {ctx : CallContext}
    {timers : Timers} (hstop : ctx.timers.stopAll (c.now s.world) = some timers)
    (t : Transaction) (input : Option Json) (result : Except Failure CheckResponse) :
    (eventsOfSteps conf c call 2 (.evaluated ctx t input result) s).filterMap CallEvent.entry =
      [entry conf ctx t input result timers.all] := by
  rcases hlog : c.log (entry conf ctx t input result timers.all) s.world with ⟨logged, w⟩
  simp only [eventsOfSteps, eventsOf, step, hstop, log_of_stopped hstop hlog]
  rfl

section

variable {id : String} {t : Transaction} {w₁ w₂ : σ} {e : Evaluated} {s' : Shared σ ρ}
  (hid : c.nextId s.world = (.ok id, w₁)) (hopened : c.openTransaction w₁ = (.ok t, w₂))
  (hdecide : decide conf c call (newContext c (c.now s.world) s id w₁) t
    { s with world := w₂ } = (e, s'))

include hid hopened hdecide

/-- A call whose evaluation broke off leaves no entry. -/
theorem entriesOf_of_crashed {cause : String} (h : e.result = .error (.crashed cause)) :
    entriesOf conf c call s = [] := by
  obtain ⟨ctx, input, result⟩ := e
  obtain rfl : result = .error (.crashed cause) := h
  rw [entriesOf, recordOf_of_opened hid hopened, evaluate_of_crashed hdecide]
  rfl

variable {a : Except Failure CheckResponse} {timers : Timers} (ha : e.answer? = some a)
  (hstop : e.ctx.timers.stopAll (c.now s'.world) = some timers)

include ha hstop

/-- A call whose evaluation did not break off leaves one entry. -/
theorem entriesOf_of_answer :
    entriesOf conf c call s = [entry conf e.ctx t e.input a timers.all] := by
  rw [entriesOf, recordOf_of_opened hid hopened, evaluate_of_answer hdecide ha]
  have hend := entries_of_stopped conf call hstop t e.input
    (a.map fun r => if conf.config.dryRun then r.dryRun else r)
  rw [entry_map] at hend
  exact hend

/-- The entry does not depend on what happens to it, nor on whether the response is used. -/
theorem entriesOf_with (dryRun : Bool) (log : AuditEntry → σ → Except Failure Unit × σ)
    (closeTransaction : Transaction → Bool → σ → Except Failure Unit × σ) :
    entriesOf (conf.withDryRun dryRun) { c with log, closeTransaction } call s =
      [entry conf e.ctx t e.input a timers.all] := by
  let c' : Collaborators σ ρ := { c with log, closeTransaction }
  -- the evaluation neither logs nor closes, and knows of no dry runs
  have hdecide' : decide (conf.withDryRun dryRun) c' call
      (newContext c' (c'.now s.world) s id w₁) t { s with world := w₂ } = (e, s') := hdecide
  have hid' : c'.nextId s.world = (.ok id, w₁) := hid
  have hopened' : c'.openTransaction w₁ = (.ok t, w₂) := hopened
  have hstop' : e.ctx.timers.stopAll (c'.now s'.world) = some timers := hstop
  exact entriesOf_of_answer hid' hopened' hdecide' ha hstop'

end

/-! ## What the entry says -/

theorem isSome_nonempty (s : String) : (nonempty s).isSome = !s.isEmpty := by
  simp only [nonempty]
  cases s.isEmpty <;> rfl

/-- What is known after the evaluation of a call is what its entry says. -/
theorem truthful_of_findings {read : Config.FileReader} {raw : Config}
    (hconf : raw.resolve read = .ok conf) {opened : Shared σ ρ} {events : List (EngineEvent ρ)}
    {e : Evaluated}
    (hfindings : Findings (builtInput? conf c call opened) (evaluationIn events)
      (fun name => name = handlerTimer ∨ isLate c call opened = false ∧ name = inputTimer) e)
    {now : Nat} {timers : Timers} (hstop : e.ctx.timers.stopAll now = some timers)
    {answer a : Except Failure CheckResponse} (herror : errorOf answer = errorOf a)
    (t : Transaction) :
    Truthful conf c call opened events answer (entry conf e.ctx t e.input a timers.all) where
  input := hfindings.input
  result := hfindings.decision
  builtinResults := hfindings.builtinResults
  error := by rw [herror, entry]
  metrics name := by
    rw [entry, Timers.names_all_of_stopAll hstop, hfindings.timers, or_assoc]
  entryPoint := by
    rw [entry, isSome_nonempty, isSome_nonempty, Config.isEmpty_path_of_resolve hconf]

/-- A call that has opened a transaction leaves exactly one entry unless the engine breaks off, and
    what the entry says is true. It says the same in a dry run, whatever the logger answers, and
    whether or not the transaction can be closed. -/
theorem entry_truthful {read : Config.FileReader} {raw : Config}
    (hconf : raw.resolve read = .ok conf) (c : Collaborators σ ρ) (call : CallInput)
    (s : Shared σ ρ) {id : String} {t : Transaction} {w₁ w₂ : σ}
    (hid : c.nextId s.world = (.ok id, w₁)) (hopened : c.openTransaction w₁ = (.ok t, w₂)) :
    (∃ cause, crashIn (engineRecordOf conf c call s) = some cause ∧
      (check conf c call s).1 = .crashed cause ∧ entriesOf conf c call s = []) ∨
    ∃ answer e, (check conf c call s).1 = .answered answer ∧ entriesOf conf c call s = [e] ∧
      Truthful conf c call { s with world := w₂ } (engineRecordOf conf c call s) answer e ∧
      ∀ dryRun log closeTransaction,
        entriesOf (conf.withDryRun dryRun) { c with log, closeTransaction } call s = [e] := by
  let ctx := newContext c (c.now s.world) s id w₁
  have hctx : ctx.timers = ({} : Timers).start handlerTimer (c.clock s.world).toNat := rfl
  have hstop := exists_stopAll_of_decide conf c call t { s with world := w₂ } hctx
  have hundecided : Undecided ctx := ⟨rfl, rfl⟩
  have hfindings := decide_findings conf c call t { s with world := w₂ } hundecided
  have hhandler (name : String) : ctx.timers.Has name ↔ name = handlerTimer := by
    simp only [hctx, Timers.has_start, Timers.not_has_empty, or_false]
  simp only [hhandler] at hfindings
  rcases hdecide : decide conf c call ctx t { s with world := w₂ } with ⟨e, s'⟩
  rw [hdecide] at hstop hfindings
  obtain ⟨timers, hstop⟩ := hstop
  cases ha : e.answer? with
  | none =>
    obtain ⟨cause, hcrashed⟩ := Evaluated.answer?_eq_none_iff.1 ha
    have houtcome := outcome_of_crashed hid hopened hdecide hcrashed
    exact .inl ⟨cause, crashIn_of_check houtcome, houtcome,
      entriesOf_of_crashed hid hopened hdecide hcrashed⟩
  | some a =>
    obtain ⟨answer, houtcome, herror⟩ := outcome_of_answer hid hopened hdecide ha hstop
    have hwhole : e.result ≠ .error timerOverflow := by
      intro h
      rw [Evaluated.answer?_eq_none_iff.2 ⟨_, h⟩] at ha
      cases ha
    have htruthful := truthful_of_findings hconf (hfindings hwhole) hstop herror t
    rw [← engineRecordOf_of_opened hid hopened] at htruthful
    exact .inr ⟨answer, _, houtcome, entriesOf_of_answer hid hopened hdecide ha hstop, htruthful,
      entriesOf_with hid hopened hdecide ha hstop⟩

/-- An engine that denies every request, with a logger that takes no entry, on a clock that stands
    still. -/
def denyingCollaborators : Collaborators Unit Unit where
  nextId w := (.ok "id", w)
  openTransaction w := (.ok ⟨1, .object []⟩, w)
  closeTransaction _ _ w := (.ok (), w)
  convert input := .ok input
  prepare _ w := (.ok (), w)
  evaluate _ _ _ w :=
    (.ok { decision := some (.bool false), metrics := { entries := [(evalTimer, 7)] } }, w)
  log _ w := (.error ⟨.logging, "the disk is full"⟩, w)
  clock _ := 0
  today _ := ⟨0, 0⟩

/-- The settings that come out of resolving none. -/
def defaultConf : Config.Resolved :=
  ⟨{ path := Config.defaultPath }, .ofPath Config.defaultPath, none⟩

/-- A denial is logged as it was made. -/
theorem denial_truthful :
    let call : CallInput := ⟨⟨none⟩, .v3, none⟩
    let s : Shared Unit Unit := { world := () }
    Config.resolve (fun _ => .error "no file") {} = .ok defaultConf ∧
      denyingCollaborators.nextId s.world = (.ok "id", ()) ∧
      denyingCollaborators.openTransaction s.world = (.ok ⟨1, .object []⟩, ()) ∧
      ∃ answer e, (check defaultConf denyingCollaborators call s).1 = .answered answer ∧
        entriesOf defaultConf denyingCollaborators call s = [e] ∧
        Truthful defaultConf denyingCollaborators call s
          (engineRecordOf defaultConf denyingCollaborators call s) answer e ∧
        e.result = some (.bool false) := by
  intro call s
  have hengine : crashIn (engineRecordOf defaultConf denyingCollaborators call s) = none ∧
      (evaluationIn (engineRecordOf defaultConf denyingCollaborators call s)).bind (·.decision) =
        some (.bool false) := by
    constructor <;> rfl
  have hconf : Config.resolve (fun _ => .error "no file") {} = .ok defaultConf := rfl
  refine ⟨hconf, rfl, rfl, ?_⟩
  rcases entry_truthful hconf denyingCollaborators call s rfl rfl with
    ⟨cause, hcrash, -⟩ | ⟨answer, e, ho, he, htruth, -⟩
  · rw [hengine.1] at hcrash
    cases hcrash
  · exact ⟨answer, e, ho, he, htruth, htruth.result.trans hengine.2⟩

end AuthGate.Pipeline
