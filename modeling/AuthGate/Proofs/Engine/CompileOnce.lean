import AuthGate.Proofs.Engine.Callers

set_option autoImplicit false

/-! # One compilation between two invalidations

What callers of the cache may rely on, however their steps and the invalidations alternate: one
query for all that come between two invalidations, never one whose compilation began before they
came and was overtaken by an invalidation, and another attempt after a failed one. All of it is
drawn from `Crowd.Sound`. What is said of histories is said of what was done, since a history
records every action where it happened (`Recorded`). `run_orderly` states both of every run. -/

namespace AuthGate

open CacheEvent

variable {α : Type}

/-! ## Reading histories -/

namespace CacheEvent

/-- What happened has happened at some moment, and was justified then. -/
theorem Valid.exists_of_mem {history : List (CacheEvent α)} (h : Valid history) {e : CacheEvent α}
    (he : e ∈ history) : ∃ past later, history = past ++ e :: later ∧ Justified past e := by
  obtain ⟨past, later, rfl⟩ := List.append_of_mem he
  exact ⟨past, later, rfl, h past e later rfl⟩

/-- A caller reads once which slot is in use. -/
theorem Valid.read_unique {history : List (CacheEvent α)} (h : Valid history) {caller n m : Nat}
    (hn : .read caller n ∈ history) (hm : .read caller m ∈ history) : n = m := by
  obtain ⟨past, later, rfl, -, honce⟩ := h.exists_of_mem hn
  rcases List.mem_append.1 hm with hm | hm
  · exact absurd hm (honce m)
  rcases List.mem_cons.1 hm with heq | hm
  · cases heq
    rfl
  · obtain ⟨between, after, rfl⟩ := List.append_of_mem hm
    have hsecond := h (past ++ .read caller n :: between) (.read caller m) after (by simp)
    exact absurd (by simp) (hsecond.2 n)

theorem Valid.read_of_began {history : List (CacheEvent α)} (h : Valid history) {caller n : Nat}
    (hbegan : .began caller n ∈ history) : .read caller n ∈ history := by
  obtain ⟨past, later, rfl, hread, -⟩ := h.exists_of_mem hbegan
  exact List.mem_append_left _ hread

theorem Valid.read_of_ended {history : List (CacheEvent α)} (h : Valid history) {caller n : Nat}
    {r : Except Failure α} (hended : .ended caller n r ∈ history) : .read caller n ∈ history := by
  obtain ⟨past, later, rfl, hbegan, -⟩ := h.exists_of_mem hended
  exact h.read_of_began (List.mem_append_left _ hbegan)

theorem invalidations_append (past later : List (CacheEvent α)) :
    invalidations (past ++ later) = invalidations past + invalidations later :=
  List.countP_append

/-- A compilation that has ended began before, and only after its slot had come into use. -/
theorem Valid.began_of_ended {history : List (CacheEvent α)} (h : Valid history) {caller n : Nat}
    {r : Except Failure α} (hended : .ended caller n r ∈ history) :
    ∃ before between after,
      history = before ++ .began caller n :: between ++ .ended caller n r :: after ∧
        n ≤ invalidations before := by
  obtain ⟨past, after, rfl, hbegan, -⟩ := h.exists_of_mem hended
  obtain ⟨before, between, rfl⟩ := List.append_of_mem hbegan
  refine ⟨before, between, after, rfl, ?_⟩
  have hjustified := h before (.began caller n) (between ++ .ended caller n r :: after) (by simp)
  obtain ⟨start, rest, rfl⟩ := List.append_of_mem hjustified.1
  have hread := h start (.read caller n) (rest ++ .began caller n :: between ++
    .ended caller n r :: after) (by simp)
  rw [hread.1, invalidations_append]
  exact Nat.le_add_right _ _

end CacheEvent

namespace Crowd

/-- What callers of a cache may rely on. The slot of a caller is known by its number, which is how
    often the cache had been invalidated when the caller came. -/
structure Orderly (s : Crowd α) : Prop where
  /-- At most one compilation for a slot succeeds, and none begins afterwards. -/
  once : ∀ past caller n q later, s.history = past ++ .ended caller n (.ok q) :: later →
    (∀ other p, .ended other n (.ok p) ∉ past ++ later) ∧ ∀ other, .began other n ∉ later
  /-- All callers of a slot that are given a query are given the one compiled for it. -/
  same : ∀ caller n q, .ended caller n (.ok q) ∈ s.history → ∀ other p,
    .read other n ∈ s.history → s.callers[other]? = some (.answered (.ok p)) → p = q
  /-- The compilation of a query that a caller is given began after all the invalidations before
      which the caller had not come. -/
  fresh : ∀ past caller n later, s.history = past ++ .read caller n :: later →
    n = invalidations past ∧ ∀ q, s.callers[caller]? = some (.answered (.ok q)) →
      ∃ before other between after,
        s.history = before ++ .began other n :: between ++ .ended other n (.ok q) :: after ∧
          invalidations past ≤ invalidations before
  /-- The cache is initialized exactly if a compilation for the slot in use has succeeded, and that
      one has not been overtaken by an invalidation. -/
  initialized : s.cache.isInitialized = true ↔ ∃ before caller q between after,
    s.history = before ++ .began caller (invalidations s.history) :: between ++
      .ended caller (invalidations s.history) (.ok q) :: after ∧
    invalidations (between ++ after) = 0
  /-- A failed compilation is reported to its caller and leaves the slot empty. -/
  failed : ∀ caller n f, s.callers[caller]? = some (.compiling n) →
    (s.step (.finish caller (.error f))).callers[caller]? = some (.answered (.error f)) ∧
      (s.step (.finish caller (.error f))).cache.slot n = .empty
  /-- No other caller is given the failure. -/
  blamed : ∀ caller f, s.callers[caller]? = some (.answered (.error f)) →
    ∃ n, .ended caller n (.error f) ∈ s.history
  /-- The next caller that looks into an empty slot compiles again. -/
  again : ∀ caller n, s.callers[caller]? = some (.holding n) → s.cache.slot n = .empty →
    (s.step (.proceed caller)).callers[caller]? = some (.compiling n)

variable {s : Crowd α}

theorem Sound.once (h : s.Sound) {past later : List (CacheEvent α)} {caller n : Nat} {q : α}
    (heq : s.history = past ++ .ended caller n (.ok q) :: later) :
    (∀ other p, .ended other n (.ok p) ∉ past ++ later) ∧ ∀ other, .began other n ∉ later := by
  have hvalid := h.valid
  rw [heq] at hvalid
  have hfirst := hvalid past (.ended caller n (.ok q)) later rfl
  -- what comes later would have to be justified by a past without a success
  have hlater : ∀ e ∈ later,
      ∃ between, Justified (past ++ .ended caller n (.ok q) :: between) e := by
    intro e he
    obtain ⟨between, after, rfl⟩ := List.append_of_mem he
    exact ⟨between, hvalid _ e after (by simp)⟩
  refine ⟨fun other p hmem => ?_, fun other hmem => ?_⟩
  · rcases List.mem_append.1 hmem with hmem | hmem
    · exact hfirst.2 other p hmem
    · obtain ⟨between, hjustified⟩ := hlater _ hmem
      exact hjustified.2 caller q (by simp)
  · obtain ⟨between, hjustified⟩ := hlater _ hmem
    exact hjustified.2 caller q (by simp)

/-- A query that a caller was given was compiled for the slot that the caller had read. -/
theorem Sound.exists_ended (h : s.Sound) {caller n : Nat} {q : α}
    (hread : .read caller n ∈ s.history)
    (hcaller : s.callers[caller]? = some (.answered (.ok q))) :
    ∃ other, .ended other n (.ok q) ∈ s.history := by
  obtain ⟨m, hended | ⟨p, hp, hshared⟩⟩ := h.answered hcaller
  · rw [h.valid.read_unique hread (h.valid.read_of_ended hended)]
    exact ⟨caller, hended⟩
  -- the caller shared the query of the slot that it had read, and it reads only once
  · cases hp
    obtain ⟨past, later, heq, hread', other, hended⟩ := h.valid.exists_of_mem hshared
    have hmem : ∀ {e}, e ∈ past → e ∈ s.history := fun he => heq ▸ List.mem_append_left _ he
    rw [h.valid.read_unique hread (hmem hread')]
    exact ⟨other, hmem hended⟩

theorem Sound.epoch_eq (h : s.Sound) : s.cache.epoch = invalidations s.history := by
  simp [QueryCache.epoch, h.length]

theorem Sound.isInitialized_iff (h : s.Sound) : s.cache.isInitialized = true ↔
    ∃ before caller q between after,
      s.history = before ++ .began caller (invalidations s.history) :: between ++
        .ended caller (invalidations s.history) (.ok q) :: after ∧
      invalidations (between ++ after) = 0 := by
  rw [QueryCache.isInitialized_iff, h.epoch_eq]
  constructor
  · rintro ⟨q, hslot⟩
    obtain ⟨caller, hended⟩ := h.ready.1 hslot
    obtain ⟨before, between, after, heq, hle⟩ := h.valid.began_of_ended hended
    refine ⟨before, caller, q, between, after, heq, ?_⟩
    -- all invalidations came before the compilation began, hence none afterwards
    have hcount := congrArg invalidations heq
    simp only [invalidations, List.countP_append, List.countP_cons] at hcount hle ⊢
    omega
  · rintro ⟨before, caller, q, between, after, heq, -⟩
    refine ⟨q, h.ready.2 ⟨caller, ?_⟩⟩
    generalize invalidations s.history = n at heq ⊢
    simp [heq]

theorem Sound.orderly (h : s.Sound) : s.Orderly where
  once _ _ _ _ _ heq := h.once heq
  same caller n q hended other p hread hother := by
    obtain ⟨third, hended'⟩ := h.exists_ended hread hother
    have hslot := h.ready.2 ⟨caller, hended⟩
    have hslot' := h.ready.2 ⟨third, hended'⟩
    rw [hslot] at hslot'
    cases hslot'
    rfl
  fresh past caller n later heq := by
    have hread := h.valid past _ later heq
    refine ⟨hread.1, fun q hcaller => ?_⟩
    have hmem : .read caller n ∈ s.history := by simp [heq]
    obtain ⟨other, hended⟩ := h.exists_ended hmem hcaller
    obtain ⟨before, between, after, heq', hle⟩ := h.valid.began_of_ended hended
    exact ⟨before, other, between, after, heq', hread.1 ▸ hle⟩
  initialized := h.isInitialized_iff
  failed caller n f hcaller := by
    have hlt := (List.getElem?_eq_some_iff.1 hcaller).1
    have hslot := (h.compiling hcaller).2
    have hn := QueryCache.lt_length_of_slot_ne_empty (by rw [hslot]; simp)
    simp only [Crowd.step, hcaller]
    refine ⟨by simp [hlt], ?_⟩
    rw [QueryCache.slot_finish hn, if_pos rfl]
    rfl
  blamed caller f hcaller := by
    obtain ⟨n, hended | ⟨q, hq, -⟩⟩ := h.answered hcaller
    · exact ⟨n, hended⟩
    · cases hq
  again caller n hcaller hslot := by
    have hlt := (List.getElem?_eq_some_iff.1 hcaller).1
    simp only [Crowd.step, hcaller, hslot]
    simp [hlt]

/-! ## Runs -/

/-- The history of callers of a new cache tells what they and others did, each action where it
    happened. -/
structure Recorded (actions : List (Action α)) (s : Crowd α) : Prop where
  callers : s.callers.length = comers actions
  invalidations : invalidations s.history = invalidates actions
  /-- An action is recorded as one event at most. -/
  length : s.history.length ≤ actions.length
  /-- A caller that comes has the next number, and reads the slot that the invalidations so far have
      left in use. -/
  read (past later : List (Action α)) : actions = past ++ .read :: later →
    (run {} past).history ++ [.read (comers past) (invalidates past)] <+: s.history
  /-- A caller whose slot is empty begins to compile. -/
  began (past later : List (Action α)) (caller n : Nat) : actions = past ++ .proceed caller :: later →
    (run {} past).callers[caller]? = some (.holding n) → (run {} past).cache.slot n = .empty →
      (run {} past).history ++ [.began caller n] <+: s.history
  /-- A compilation ends as the one who compiles says. -/
  ended (past later : List (Action α)) (caller n : Nat) (r : Except Failure α) :
    actions = past ++ .finish caller r :: later →
      (run {} past).callers[caller]? = some (.compiling n) →
        (run {} past).history ++ [.ended caller n r] <+: s.history
  invalidated (past later : List (Action α)) : actions = past ++ .invalidate :: later →
    (run {} past).history ++ [.invalidated] <+: s.history

theorem invalidations_run (actions : List (Action α)) :
    invalidations (run ({} : Crowd α) actions).history = invalidates actions := by
  obtain ⟨events, hevents, -, hcount⟩ := ({} : Crowd α).exists_history_run actions
  rw [hevents, List.nil_append, hcount]

theorem length_history_run (actions : List (Action α)) :
    (run ({} : Crowd α) actions).history.length ≤ actions.length := by
  obtain ⟨events, hevents, hlength, -⟩ := ({} : Crowd α).exists_history_run actions
  rw [hevents, List.nil_append]
  exact hlength

/-- What an action adds to the history stays there. -/
theorem history_prefix {actions past later : List (Action α)} {a : Action α}
    (h : actions = past ++ a :: later) :
    ((run ({} : Crowd α) past).step a).history <+: (run ({} : Crowd α) actions).history := by
  obtain ⟨events, hevents, -, -⟩ := ((run ({} : Crowd α) past).step a).exists_history_run later
  rw [h, run_append]
  exact ⟨events, hevents.symm⟩

theorem recorded_run (actions : List (Action α)) : Recorded actions (run {} actions) where
  callers := (length_callers_run {} actions).trans (Nat.zero_add _)
  invalidations := invalidations_run actions
  length := length_history_run actions
  read past later h := by
    have hcaller : (run ({} : Crowd α) past).callers.length = comers past :=
      (length_callers_run {} past).trans (Nat.zero_add _)
    have hslot : (run ({} : Crowd α) past).cache.epoch = invalidates past :=
      (sound_empty.run past).epoch_eq.trans (invalidations_run past)
    rw [← hcaller, ← hslot]
    exact history_prefix h
  began past later caller n h hcaller hslot := by
    have hstep := history_prefix h
    simpa only [Crowd.step, hcaller, hslot] using hstep
  ended past later caller n r h hcaller := by
    have hstep := history_prefix h
    simpa only [Crowd.step, hcaller] using hstep
  invalidated past later h := history_prefix h

/-- However callers and invalidations alternate, the callers are served in order. -/
theorem run_orderly (actions : List (Action α)) :
    (run ({} : Crowd α) actions).Orderly ∧ Recorded actions (run {} actions) :=
  ⟨(sound_empty.run actions).orderly, recorded_run actions⟩

/-- Two callers share a query whose compilation is overtaken by an invalidation; the next one fails to
    compile, and the last one compiles the query that is in use then. -/
example :
    let s := run ({} : Crowd Nat) [.read, .proceed 0, .read, .proceed 1, .invalidate,
      .finish 0 (.ok 7), .proceed 1, .read, .proceed 2, .finish 2 (.error ⟨.store, "closed"⟩),
      .read, .proceed 3, .finish 3 (.ok 8)]
    s.callers = [.answered (.ok 7), .answered (.ok 7), .answered (.error ⟨.store, "closed"⟩),
      .answered (.ok 8)] ∧ s.cache.slots = [.ready 7, .ready 8] :=
  ⟨rfl, rfl⟩

end Crowd

end AuthGate
