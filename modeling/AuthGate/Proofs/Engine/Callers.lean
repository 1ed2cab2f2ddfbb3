import AuthGate.Engine.QueryCache
import Mathlib.Data.List.Basic

set_option autoImplicit false

/-! # Callers of the cache side by side

Any number of callers ask one cache for the compiled query, their steps in any order, and the
cache is invalidated at any time. At most one compilation runs for a slot; callers that come to a
slot meanwhile wait. A history tells what happened. That every event of it is justified by those
before it is kept by every step, together with how the slots and the callers stand to it
(`Sound.step`). -/

namespace AuthGate

variable {α : Type}

/-- Where a caller stands. -/
inductive Caller (α : Type) where
  /-- It has read which slot is in use. -/
  | holding (n : Nat)
  /-- It compiles the query for a slot. -/
  | compiling (n : Nat)
  | answered (r : Except Failure α)

/-- What happened. Callers are numbered as they come. -/
inductive CacheEvent (α : Type) where
  | read (caller n : Nat)
  | began (caller n : Nat)
  | ended (caller n : Nat) (r : Except Failure α)
  /-- A caller was given the query that is in its slot. -/
  | shared (caller n : Nat) (query : α)
  | invalidated

/-- Callers of one cache. -/
structure Crowd (α : Type) where
  cache : QueryCache α := {}
  callers : List (Caller α) := []
  history : List (CacheEvent α) := []

namespace Crowd

/-- What may happen next. -/
inductive Action (α : Type) where
  /-- Another caller comes and reads which slot is in use. -/
  | read
  /-- A caller looks into its slot: it is given the query, or compiles it, or has to wait. -/
  | proceed (caller : Nat)
  /-- The compilation of a caller ends. -/
  | finish (caller : Nat) (r : Except Failure α)
  | invalidate

/-- The callers after an action. An action that its caller cannot take changes nothing. -/
def step (s : Crowd α) : Action α → Crowd α
  | .read =>
    let n := s.cache.epoch
    { s with
      callers := s.callers ++ [.holding n]
      history := s.history ++ [.read s.callers.length n] }
  | .proceed caller =>
    match s.callers[caller]? with
    | some (.holding n) =>
      match s.cache.slot n with
      | .ready q =>
        { s with
          callers := s.callers.set caller (.answered (.ok q))
          history := s.history ++ [.shared caller n q] }
      | .empty =>
        { cache := s.cache.put n .compiling
          callers := s.callers.set caller (.compiling n)
          history := s.history ++ [.began caller n] }
      | .compiling => s
    | _ => s
  | .finish caller r =>
    match s.callers[caller]? with
    | some (.compiling n) =>
      { cache := s.cache.finish n r
        callers := s.callers.set caller (.answered r)
        history := s.history ++ [.ended caller n r] }
    | _ => s
  | .invalidate => { s with cache := s.cache.invalidate, history := s.history ++ [.invalidated] }

/-- The callers after some actions. -/
def run (s : Crowd α) (actions : List (Action α)) : Crowd α := actions.foldl step s

end Crowd

/-! ## Histories -/

namespace CacheEvent

/-- Whether an event is an invalidation. -/
@[simp] def isInvalidation : CacheEvent α → Bool
  | .invalidated => true
  | .read .. | .began .. | .ended .. | .shared .. => false

/-- How often the cache was invalidated. -/
def invalidations (past : List (CacheEvent α)) : Nat := past.countP isInvalidation

/-- What must have happened before an event. -/
def Justified (past : List (CacheEvent α)) : CacheEvent α → Prop
  | .read caller n => n = invalidations past ∧ ∀ m, .read caller m ∉ past
  | .began caller n => .read caller n ∈ past ∧ ∀ other q, .ended other n (.ok q) ∉ past
  | .ended caller n _ => .began caller n ∈ past ∧ ∀ other q, .ended other n (.ok q) ∉ past
  | .shared caller n q => .read caller n ∈ past ∧ ∃ other, .ended other n (.ok q) ∈ past
  | .invalidated => True

/-- Every event is justified by those before it. -/
def Valid (history : List (CacheEvent α)) : Prop :=
  ∀ past e later, history = past ++ e :: later → Justified past e

theorem valid_nil : Valid ([] : List (CacheEvent α)) := by
  intro past e later h
  simp at h

theorem Valid.snoc {history : List (CacheEvent α)} (h : Valid history) {e : CacheEvent α}
    (he : Justified history e) : Valid (history ++ [e]) := by
  intro past e' later heq
  rcases List.eq_nil_or_concat later with rfl | ⟨init, last, rfl⟩
  · obtain ⟨rfl, hlast⟩ := List.append_inj' heq rfl
    cases hlast
    exact he
  · rw [List.concat_eq_append, ← List.cons_append, ← List.append_assoc] at heq
    obtain ⟨hinit, -⟩ := List.append_inj' heq rfl
    exact h past e' init hinit

theorem invalidations_snoc (past : List (CacheEvent α)) (e : CacheEvent α) :
    invalidations (past ++ [e]) = invalidations past + e.isInvalidation.toNat := by
  cases e <;> simp [invalidations, List.countP_append]

end CacheEvent

/-! ## What every step keeps -/

open CacheEvent

/-- How the slots and the callers stand to the history. -/
structure Crowd.Sound (s : Crowd α) : Prop where
  valid : Valid s.history
  length : s.cache.slots.length = invalidations s.history + 1
  known {caller n : Nat} : .read caller n ∈ s.history → caller < s.callers.length
  holding {caller n : Nat} : s.callers[caller]? = some (.holding n) →
    .read caller n ∈ s.history ∧ n < s.cache.slots.length
  compiling {caller n : Nat} : s.callers[caller]? = some (.compiling n) →
    .began caller n ∈ s.history ∧ s.cache.slot n = .compiling
  alone {caller other n : Nat} : s.callers[caller]? = some (.compiling n) →
    s.callers[other]? = some (.compiling n) → caller = other
  ready {n : Nat} {q : α} : s.cache.slot n = .ready q ↔
    ∃ caller, .ended caller n (.ok q) ∈ s.history
  ended {caller n : Nat} {r : Except Failure α} : .ended caller n r ∈ s.history →
    s.callers[caller]? = some (.answered r)
  answered {caller : Nat} {r : Except Failure α} : s.callers[caller]? = some (.answered r) →
    ∃ n, .ended caller n r ∈ s.history ∨ ∃ q, r = .ok q ∧ .shared caller n q ∈ s.history

attribute [grind →] Crowd.Sound.known Crowd.Sound.holding Crowd.Sound.compiling Crowd.Sound.alone
  Crowd.Sound.ended Crowd.Sound.answered

namespace Crowd

theorem sound_empty : Sound ({} : Crowd α) where
  valid := valid_nil
  length := rfl
  known h := by simp at h
  holding h := by simp at h
  compiling h := by simp at h
  alone h := by simp at h
  ready := by
    intro n q
    cases n <;> simp [QueryCache.slot]
  ended h := by simp at h
  answered h := by simp at h

variable {s : Crowd α}

/-- A caller after another one has come. -/
theorem getElem?_snoc_caller {callers : List (Caller α)} {a b : Caller α} {caller : Nat} :
    (callers ++ [a])[caller]? = some b ↔
      callers[caller]? = some b ∨ caller = callers.length ∧ b = a := by
  rw [List.getElem?_append]
  split
  · next hlt =>
    constructor
    · exact .inl
    · rintro (h | ⟨rfl, -⟩)
      · exact h
      · omega
  · next hge =>
    have hnone : callers[caller]? = none := List.getElem?_eq_none (by omega)
    rw [hnone]
    by_cases heq : caller = callers.length
    · simp [heq, eq_comm]
    · have hpos : caller - callers.length ≠ 0 := by omega
      simp [heq, hpos]

/-- Another caller comes. -/
theorem Sound.read (h : s.Sound) : (s.step .read).Sound := by
  have hepoch : s.cache.epoch = invalidations s.history := by simp [QueryCache.epoch, h.length]
  have hlength := h.length
  simp only [step]
  exact {
    valid := h.valid.snoc ⟨hepoch, fun m hm => Nat.lt_irrefl _ (h.known hm)⟩
    length := by
      rw [invalidations_snoc]
      exact hlength
    known := by
      intro caller n hmem
      rw [List.length_append]
      rcases List.mem_append.1 hmem with hmem | hmem
      · exact Nat.lt_add_right _ (h.known hmem)
      · cases List.mem_singleton.1 hmem
        exact Nat.lt_succ_self _
    holding := by
      intro caller n hcaller
      rcases getElem?_snoc_caller.1 hcaller with hcaller | ⟨rfl, heq⟩
      · obtain ⟨hread, hlt⟩ := h.holding hcaller
        exact ⟨List.mem_append_left _ hread, hlt⟩
      · cases heq
        refine ⟨List.mem_append_right _ (List.mem_singleton_self _), ?_⟩
        rw [hepoch, hlength]
        exact Nat.lt_succ_self _
    -- a new caller neither compiles nor has been answered
    compiling := by
      intro caller n hcaller
      rcases getElem?_snoc_caller.1 hcaller with hcaller | ⟨-, heq⟩
      · obtain ⟨hbegan, hslot⟩ := h.compiling hcaller
        exact ⟨List.mem_append_left _ hbegan, hslot⟩
      · cases heq
    alone := by
      intro caller other n hcaller hother
      rcases getElem?_snoc_caller.1 hcaller with hcaller | ⟨-, heq⟩
      · rcases getElem?_snoc_caller.1 hother with hother | ⟨-, heq⟩
        · exact h.alone hcaller hother
        · cases heq
      · cases heq
    ready := by
      intro n q
      rw [h.ready]
      simp
    ended := by
      intro caller n r hmem
      rcases List.mem_append.1 hmem with hmem | hmem
      · exact getElem?_snoc_caller.2 (.inl (h.ended hmem))
      · cases List.mem_singleton.1 hmem
    answered := by
      intro caller r hcaller
      rcases getElem?_snoc_caller.1 hcaller with hcaller | ⟨-, heq⟩
      · obtain ⟨n, hn⟩ := h.answered hcaller
        refine ⟨n, hn.imp (List.mem_append_left _) ?_⟩
        rintro ⟨q, hq, hshared⟩
        exact ⟨q, hq, List.mem_append_left _ hshared⟩
      · cases heq }

/-- A caller is given the query of its slot. -/
theorem Sound.share (h : s.Sound) {mover n : Nat} {q : α}
    (hmover : s.callers[mover]? = some (.holding n)) (hslot : s.cache.slot n = .ready q) :
    Sound { s with
      callers := s.callers.set mover (.answered (.ok q))
      history := s.history ++ [.shared mover n q] } := by
  obtain ⟨hread, -⟩ := h.holding hmover
  exact {
    valid := h.valid.snoc ⟨hread, h.ready.1 hslot⟩
    length := by
      rw [invalidations_snoc]
      exact h.length
    known := by grind
    holding := by grind
    compiling := by grind
    alone := by grind
    ready := by
      intro m p
      rw [h.ready]
      simp
    ended := by grind
    answered := by grind }

/-- A caller begins to compile the query for its slot, which is empty. -/
theorem Sound.begin (h : s.Sound) {mover n : Nat}
    (hmover : s.callers[mover]? = some (.holding n)) (hslot : s.cache.slot n = .empty) :
    Sound {
      cache := s.cache.put n .compiling
      callers := s.callers.set mover (.compiling n)
      history := s.history ++ [.began mover n] } := by
  obtain ⟨hread, hlt⟩ := h.holding hmover
  have hnone : ∀ other q, .ended other n (.ok q) ∉ s.history := by
    intro other q hended
    rw [h.ready.2 ⟨other, hended⟩] at hslot
    cases hslot
  have hidle : ∀ other : Nat, s.callers[other]? ≠ some (.compiling n) := by
    intro other hother
    rw [(h.compiling hother).2] at hslot
    cases hslot
  have hput := QueryCache.slot_put hlt .compiling
  have hlength := QueryCache.length_put n .compiling s.cache
  exact {
    valid := h.valid.snoc ⟨hread, hnone⟩
    length := by
      rw [invalidations_snoc, hlength]
      exact h.length
    known := by grind
    holding := by grind
    -- the others compile for other slots, since nobody has compiled for this one
    compiling := by grind
    alone := by grind
    ready := by
      intro m p
      rw [hput]
      split
      · next heq =>
        subst heq
        simp [hnone]
      · rw [h.ready]
        simp
    ended := by grind
    answered := by grind }

/-- The compilation of a caller ends. -/
theorem Sound.finish (h : s.Sound) {mover n : Nat}
    (hmover : s.callers[mover]? = some (.compiling n)) (r : Except Failure α) :
    Sound {
      cache := s.cache.finish n r
      callers := s.callers.set mover (.answered r)
      history := s.history ++ [.ended mover n r] } := by
  obtain ⟨hbegan, hslot⟩ := h.compiling hmover
  have hnone : ∀ other q, .ended other n (.ok q) ∉ s.history := by
    intro other q hended
    rw [h.ready.2 ⟨other, hended⟩] at hslot
    cases hslot
  have hlt := QueryCache.lt_length_of_slot_ne_empty (by rw [hslot]; simp)
  have hfinish := QueryCache.slot_finish hlt r
  have hlength := QueryCache.length_finish n r s.cache
  exact {
    valid := h.valid.snoc ⟨hbegan, hnone⟩
    length := by
      rw [invalidations_snoc, hlength]
      exact h.length
    known := by grind
    holding := by grind
    -- no other caller compiles for the slot, so that its change concerns none of them
    compiling := by grind
    alone := by grind
    ready := by
      intro m p
      rw [hfinish]
      split
      · next heq =>
        subst heq
        simp [hnone, eq_comm]
      · next hne =>
        rw [h.ready]
        simp [Ne.symm hne]
    ended := by grind
    answered := by grind }

/-- The cache is invalidated. The slots stay, and an empty one is added. -/
theorem Sound.invalidate (h : s.Sound) : (s.step .invalidate).Sound := by
  simp only [step]
  have hlength : s.cache.invalidate.slots.length = s.cache.slots.length + 1 := by
    simp [QueryCache.invalidate]
  exact {
    valid := h.valid.snoc trivial
    length := by
      rw [invalidations_snoc, hlength, h.length]
      rfl
    known := by grind
    holding := by grind
    compiling := by grind [QueryCache.slot_invalidate]
    alone := by grind
    ready := by
      intro m p
      rw [QueryCache.slot_invalidate, h.ready]
      simp
    ended := by grind
    answered := by grind }

/-- The callers are still sound after an action. -/
theorem Sound.step (h : s.Sound) (a : Action α) : (s.step a).Sound := by
  cases a with
  | read => exact h.read
  | proceed caller =>
    simp only [Crowd.step]
    split
    · next n hcaller =>
      split
      · next q hslot => exact h.share hcaller hslot
      · next hslot => exact h.begin hcaller hslot
      · exact h
    · exact h
  | finish caller r =>
    simp only [Crowd.step]
    split
    · next n hcaller => exact h.finish hcaller r
    · exact h
  | invalidate => exact h.invalidate

theorem Sound.run (h : s.Sound) (actions : List (Action α)) : (s.run actions).Sound := by
  induction actions generalizing s with
  | nil => exact h
  | cons a rest ih => exact ih (h.step a)

/-! ## What is recorded -/

/-- Whether an action is the coming of a caller. -/
def Action.isRead : Action α → Bool
  | .read => true
  | .proceed _ | .finish .. | .invalidate => false

/-- Whether an action is an invalidation. -/
def Action.isInvalidate : Action α → Bool
  | .invalidate => true
  | .read | .proceed _ | .finish .. => false

/-- How many callers come. -/
def comers (actions : List (Action α)) : Nat := actions.countP Action.isRead

/-- How often the cache is to be invalidated. -/
def invalidates (actions : List (Action α)) : Nat := actions.countP Action.isInvalidate

theorem comers_cons (a : Action α) (rest : List (Action α)) :
    comers (a :: rest) = a.isRead.toNat + comers rest := by
  rw [comers, comers, List.countP_cons, Nat.add_comm]
  cases a.isRead <;> rfl

theorem invalidates_cons (a : Action α) (rest : List (Action α)) :
    invalidates (a :: rest) = a.isInvalidate.toNat + invalidates rest := by
  rw [invalidates, invalidates, List.countP_cons, Nat.add_comm]
  cases a.isInvalidate <;> rfl

/-- Only the coming of a caller adds one. -/
theorem length_callers_step (s : Crowd α) (a : Action α) :
    (s.step a).callers.length = s.callers.length + a.isRead.toNat := by
  cases a with
  | read => exact List.length_append
  | invalidate => rfl
  | proceed caller =>
    simp only [step]
    split
    · split <;> simp [Action.isRead]
    · rfl
  | finish caller r =>
    simp only [step]
    split <;> simp [Action.isRead]

/-- An action adds at most one event to the history, and an invalidation only if it is one. -/
theorem exists_history_step (s : Crowd α) (a : Action α) : ∃ events,
    (s.step a).history = s.history ++ events ∧ events.length ≤ 1 ∧
      invalidations events = a.isInvalidate.toNat := by
  have hnone : ∃ events, s.history = s.history ++ events ∧ events.length ≤ 1 ∧
      invalidations events = 0 :=
    ⟨[], (List.append_nil _).symm, Nat.zero_le 1, rfl⟩
  cases a with
  | read | invalidate => exact ⟨_, rfl, Nat.le_refl 1, rfl⟩
  | proceed caller =>
    simp only [step]
    split
    · split
      · exact ⟨_, rfl, Nat.le_refl 1, rfl⟩
      · exact ⟨_, rfl, Nat.le_refl 1, rfl⟩
      · exact hnone
    · exact hnone
  | finish caller r =>
    simp only [step]
    split
    · exact ⟨_, rfl, Nat.le_refl 1, rfl⟩
    · exact hnone

theorem length_callers_run (s : Crowd α) (actions : List (Action α)) :
    (s.run actions).callers.length = s.callers.length + comers actions := by
  induction actions generalizing s with
  | nil => rfl
  | cons a rest ih =>
    rw [comers_cons, ← Nat.add_assoc, ← length_callers_step]
    exact ih (s.step a)

theorem exists_history_run (s : Crowd α) (actions : List (Action α)) : ∃ events,
    (s.run actions).history = s.history ++ events ∧ events.length ≤ actions.length ∧
      invalidations events = invalidates actions := by
  induction actions generalizing s with
  | nil => exact ⟨[], (List.append_nil _).symm, Nat.le_refl 0, rfl⟩
  | cons a rest ih =>
    obtain ⟨first, hfirst, hone, hcount⟩ := s.exists_history_step a
    obtain ⟨later, hlater, hlength, hcounts⟩ := ih (s.step a)
    refine ⟨first ++ later, ?_, ?_, ?_⟩
    · rw [← List.append_assoc, ← hfirst]
      exact hlater
    · rw [List.length_append, List.length_cons]
      omega
    · rw [invalidates_cons, ← hcount, ← hcounts]
      exact List.countP_append

/-! ## A caller from its beginning to its end -/

theorem run_append (s : Crowd α) (first rest : List (Action α)) :
    s.run (first ++ rest) = (s.run first).run rest :=
  List.foldl_append

/-- A compilation goes on until it ends, whatever others do. -/
theorem compiling_of_run {caller n : Nat} {actions : List (Action α)}
    (h : s.callers[caller]? = some (.compiling n)) (hends : ∀ r, .finish caller r ∉ actions) :
    (s.run actions).callers[caller]? = some (.compiling n) := by
  induction actions generalizing s with
  | nil => exact h
  | cons a rest ih =>
    refine ih ?_ fun r hr => hends r (List.mem_cons_of_mem _ hr)
    have hother : ∀ r, a ≠ .finish caller r := fun r ha => hends r (ha ▸ List.mem_cons_self ..)
    cases a with
    | read => exact getElem?_snoc_caller.2 (.inl h)
    | invalidate => exact h
    | proceed other =>
      simp only [step]
      grind
    | finish other r =>
      have hne : other ≠ caller := fun heq => hother r (by rw [heq])
      simp only [step]
      grind

/-- A caller that finds a query in the slot in use is given it. -/
theorem getOrCompile_of_ready {q : α} (h : s.cache.slot s.cache.epoch = .ready q)
    (compile : QueryCache α → Except Failure α × QueryCache α) :
    let t := s.run [.read, .proceed s.callers.length]
    QueryCache.getOrCompile id (fun cache _ => cache) compile s.cache = (.ok q, t.cache) ∧
      t.callers[s.callers.length]? = some (.answered (.ok q)) := by
  simp [QueryCache.getOrCompile, run, step, h]

/-- A caller that finds the slot in use empty compiles the query, whatever others do meanwhile. -/
theorem getOrCompile_of_empty (h : s.cache.slot s.cache.epoch = .empty) (r : Except Failure α)
    {meanwhile : List (Action α)} (hends : ∀ r', .finish s.callers.length r' ∉ meanwhile) :
    let began := s.run [.read, .proceed s.callers.length]
    let t := began.run (meanwhile ++ [.finish s.callers.length r])
    QueryCache.getOrCompile id (fun cache _ => cache)
        (fun cache => (r, (run { began with cache } meanwhile).cache)) s.cache = (r, t.cache) ∧
      t.callers[s.callers.length]? = some (.answered r) := by
  intro began t
  have hcache : began.cache = s.cache.put s.cache.epoch .compiling := by
    simp [began, run, step, h]
  have hcaller : began.callers[s.callers.length]? = some (.compiling s.cache.epoch) := by
    simp [began, run, step, h]
  have hcompiling := compiling_of_run hcaller hends
  have hlt := (List.getElem?_eq_some_iff.1 hcompiling).1
  have ht : t = (began.run meanwhile).step (.finish s.callers.length r) := run_append ..
  simp only [ht, step, hcompiling]
  refine ⟨?_, by simp [hlt]⟩
  simp only [QueryCache.getOrCompile, id, h, ← hcache]

end Crowd

end AuthGate
