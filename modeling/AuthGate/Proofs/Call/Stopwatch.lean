import AuthGate.Proofs.Server.Duration
import Mathlib.Data.List.Induction

set_option autoImplicit false

/-! # One timer by itself

A timer counts the durations that are recorded on it and, whenever it is stopped while it runs, the
time since it was last started. A `Stopwatch` does so without a bound. Since when it runs
(`since_run_eq_some_iff`), whether anything has been counted (`isSome_counted_run_iff`) and how much
if it never ran when it was stopped (`counted_run_of_not_lapped`) are read off its history. -/

namespace AuthGate

/-- A timer by itself: since when it runs, if it does, and what has been counted on it, if anything
    has. -/
structure Stopwatch where
  since : Option Nat := none
  counted : Option Nat := none
  deriving DecidableEq, Repr

namespace Stopwatch

/-- What happens to a timer. -/
inductive Event where
  | recorded (d : Duration)
  | started (now : Nat)
  | stopped (now : Nat)
  deriving DecidableEq

/-- What has been counted in all. -/
def total (w : Stopwatch) : Nat := w.counted.getD 0

/-- A duration counted. -/
def add (elapsed : Nat) (w : Stopwatch) : Stopwatch :=
  { w with counted := some (w.total + elapsed) }

/-- The time since the start counted, if the timer runs. -/
def stop (now : Nat) (w : Stopwatch) : Stopwatch :=
  match w.since with
  | none => w
  | some began => add (now - began) { w with since := none }

def step (w : Stopwatch) : Event → Stopwatch
  | .recorded d => w.add d.total
  | .started now => { w with since := some now }
  | .stopped now => w.stop now

/-- A stopwatch after a history. -/
def run (history : List Event) : Stopwatch := history.foldl step {}

/-- A stopwatch after something that may not concern it. -/
def after (w : Stopwatch) : Option Event → Stopwatch
  | none => w
  | some e => w.step e

variable {history before since : List Event} {e : Event} {w : Stopwatch} {began now : Nat}

@[simp] theorem total_add (elapsed : Nat) (w : Stopwatch) :
    (w.add elapsed).total = w.total + elapsed := rfl

theorem stop_of_since_eq_none (h : w.since = none) (now : Nat) : w.stop now = w := by
  rw [stop, h]

theorem stop_of_since_eq_some (h : w.since = some began) (now : Nat) :
    w.stop now = add (now - began) { w with since := none } := by
  rw [stop, h]

@[simp] theorem since_stop (w : Stopwatch) (now : Nat) : (w.stop now).since = none := by
  cases h : w.since with
  | none => rw [stop_of_since_eq_none h, h]
  | some began => rw [stop_of_since_eq_some h, add]

/-- A timer that was stopped stays as it is when it is stopped again. -/
theorem stop_stop (w : Stopwatch) (now later : Nat) : (w.stop now).stop later = w.stop now :=
  stop_of_since_eq_none (since_stop w now) later

theorem total_le_stop (w : Stopwatch) (now : Nat) : w.total ≤ (w.stop now).total := by
  cases h : w.since with
  | none => rw [stop_of_since_eq_none h]
  | some began =>
    rw [stop_of_since_eq_some h, total_add]
    exact Nat.le_add_right w.total (now - began)

/-- Nothing that happens takes away from what was counted. -/
theorem total_le_step (w : Stopwatch) (e : Event) : w.total ≤ (w.step e).total := by
  cases e with
  | recorded d =>
    rw [step, total_add]
    exact Nat.le_add_right w.total d.total
  | started now => exact Nat.le_refl w.total
  | stopped now => exact total_le_stop w now

theorem total_le_after (w : Stopwatch) (e? : Option Event) : w.total ≤ (w.after e?).total := by
  cases e? with
  | none => exact Nat.le_refl w.total
  | some e => exact total_le_step w e

theorem run_snoc (history : List Event) (e : Event) :
    run (history ++ [e]) = (run history).step e := by
  rw [run, List.foldl_append]
  rfl

theorem run_append_toList (history : List Event) (e? : Option Event) :
    run (history ++ e?.toList) = (run history).after e? := by
  cases e? with
  | none => rw [Option.toList_none, List.append_nil, after]
  | some e => exact run_snoc history e

/-! ## Histories -/

/-- The timer was last started at this moment, and it was not stopped since. -/
def RunsSince (began : Nat) (history : List Event) : Prop :=
  ∃ before since, history = before ++ .started began :: since ∧
    (∀ now, .started now ∉ since) ∧ ∀ now, .stopped now ∉ since

/-- The timer was started, and it was not stopped since. -/
def Runs (history : List Event) : Prop := ∃ began, RunsSince began history

/-- A duration was recorded. -/
def WasRecorded (history : List Event) : Prop := ∃ d, .recorded d ∈ history

/-- The timer was stopped at a moment at which it ran. -/
def Lapped (history : List Event) : Prop :=
  ∃ before now after, history = before ++ .stopped now :: after ∧ Runs before

/-- The duration of an event that records one. -/
def Event.recorded? : Event → Option Duration
  | .recorded d => some d
  | _ => none

/-- The durations that were recorded, in order. -/
def recordings (history : List Event) : List Duration := history.filterMap Event.recorded?

theorem recordings_snoc_recorded (history : List Event) (d : Duration) :
    recordings (history ++ [.recorded d]) = recordings history ++ [d] :=
  List.filterMap_append

theorem recordings_snoc (history : List Event) (h : e.recorded? = none) :
    recordings (history ++ [e]) = recordings history := by
  rw [recordings, List.filterMap_append, List.filterMap_cons_none h, List.filterMap_nil,
    List.append_nil, recordings]

/-- An event of a history is its last one, or an earlier one. -/
theorem snoc_eq_append_cons_iff {x : Event} :
    history ++ [e] = before ++ x :: since ↔
      (since = [] ∧ history = before ∧ e = x) ∨
        ∃ rest, since = rest ++ [e] ∧ history = before ++ x :: rest := by
  constructor
  · intro h
    rcases List.eq_nil_or_concat since with rfl | ⟨rest, y, rfl⟩
    · obtain ⟨rfl, hlast⟩ := List.append_inj' h rfl
      exact .inl ⟨rfl, rfl, List.singleton_inj.1 hlast⟩
    · rw [List.concat_eq_append] at h ⊢
      rw [← List.cons_append, ← List.append_assoc] at h
      obtain ⟨rfl, hlast⟩ := List.append_inj' h rfl
      exact .inr ⟨rest, by rw [List.singleton_inj.1 hlast], rfl⟩
  · rintro (⟨rfl, rfl, rfl⟩ | ⟨rest, rfl, rfl⟩)
    · rfl
    · simp

theorem not_runsSince_nil : ¬ RunsSince began [] := by
  rintro ⟨before, since, h, -⟩
  simp at h

theorem runsSince_started : RunsSince began (history ++ [.started now]) ↔ now = began := by
  constructor
  · rintro ⟨before, since, h, hstarted, -⟩
    rcases snoc_eq_append_cons_iff.1 h with ⟨-, -, he⟩ | ⟨rest, rfl, -⟩
    · exact Event.started.inj he
    · exact absurd (List.mem_concat_self ..) (hstarted now)
  · rintro rfl
    exact ⟨history, [], rfl, fun _ => List.not_mem_nil, fun _ => List.not_mem_nil⟩

theorem not_runsSince_stopped : ¬ RunsSince began (history ++ [.stopped now]) := by
  rintro ⟨before, since, h, -, hstopped⟩
  rcases snoc_eq_append_cons_iff.1 h with ⟨-, -, he⟩ | ⟨rest, rfl, -⟩
  · cases he
  · exact absurd (List.mem_concat_self ..) (hstopped now)

theorem runsSince_recorded {d : Duration} :
    RunsSince began (history ++ [.recorded d]) ↔ RunsSince began history := by
  constructor
  · rintro ⟨before, since, h, hstarted, hstopped⟩
    rcases snoc_eq_append_cons_iff.1 h with ⟨-, -, he⟩ | ⟨rest, rfl, rfl⟩
    · cases he
    · exact ⟨before, rest, rfl, fun now hmem => hstarted now (List.mem_append_left _ hmem),
        fun now hmem => hstopped now (List.mem_append_left _ hmem)⟩
  · rintro ⟨before, since, rfl, hstarted, hstopped⟩
    refine ⟨before, since ++ [.recorded d], by simp, fun now => ?_, fun now => ?_⟩
    · simpa using hstarted now
    · simpa using hstopped now

/-- A stopwatch runs since the moment that its history tells. -/
theorem since_run_eq_some_iff : (run history).since = some began ↔ RunsSince began history := by
  induction history using List.reverseRecOn generalizing began with
  | nil => simp [run, not_runsSince_nil]
  | append_singleton history e ih =>
    rw [run_snoc]
    cases e with
    | recorded d => rw [runsSince_recorded, ← ih, step, add]
    | started now => rw [runsSince_started, step, Option.some.injEq]
    | stopped now => simp only [step, since_stop, reduceCtorEq, not_runsSince_stopped]

theorem isSome_since_run_iff : (run history).since.isSome = true ↔ Runs history := by
  simp only [Option.isSome_iff_exists, since_run_eq_some_iff, Runs]

theorem lapped_snoc :
    Lapped (history ++ [e]) ↔ Lapped history ∨ ∃ now, e = .stopped now ∧ Runs history := by
  constructor
  · rintro ⟨before, now, after, h, hruns⟩
    rcases snoc_eq_append_cons_iff.1 h with ⟨-, rfl, rfl⟩ | ⟨rest, -, rfl⟩
    · exact .inr ⟨now, rfl, hruns⟩
    · exact .inl ⟨before, now, rest, rfl, hruns⟩
  · rintro (⟨before, now, after, rfl, hruns⟩ | ⟨now, rfl, hruns⟩)
    · exact ⟨before, now, after ++ [e], by simp, hruns⟩
    · exact ⟨history, now, [], rfl, hruns⟩

theorem wasRecorded_snoc :
    WasRecorded (history ++ [e]) ↔ WasRecorded history ∨ ∃ d, e = .recorded d := by
  simp only [WasRecorded, List.mem_append, List.mem_singleton, exists_or, eq_comm (b := e)]

theorem not_lapped_of_stopped_notMem (h : ∀ now, .stopped now ∉ history) : ¬ Lapped history := by
  rintro ⟨before, now, after, rfl, -⟩
  exact h now (List.mem_append_right _ (List.mem_cons_self ..))

/-- Something has been counted once a duration was recorded or a running timer was stopped. -/
theorem isSome_counted_run_iff :
    (run history).counted.isSome = true ↔ WasRecorded history ∨ Lapped history := by
  induction history using List.reverseRecOn with
  | nil =>
    have hlapped : ¬ Lapped [] := not_lapped_of_stopped_notMem fun _ => List.not_mem_nil
    simp [run, WasRecorded, hlapped]
  | append_singleton history e ih =>
    rw [run_snoc, wasRecorded_snoc, lapped_snoc]
    cases e with
    | recorded d => simp [step, add]
    | started now => simpa [step] using ih
    | stopped now =>
      cases hsince : (run history).since with
      | none =>
        have hruns : ¬ Runs history := by simp [← isSome_since_run_iff, hsince]
        simpa [step, stop_of_since_eq_none hsince, hruns] using ih
      | some began =>
        have hruns : Runs history := isSome_since_run_iff.1 (by rw [hsince]; rfl)
        simp [step, stop_of_since_eq_some hsince, add, hruns]

/-- A timer that never ran when it was stopped has counted what was recorded. -/
theorem total_run_of_not_lapped (h : ¬ Lapped history) :
    (run history).total = ((recordings history).map Duration.total).sum := by
  induction history using List.reverseRecOn with
  | nil => rfl
  | append_singleton history e ih =>
    rw [lapped_snoc, not_or] at h
    obtain ⟨hlapped, hlast⟩ := h
    rw [run_snoc]
    cases e with
    | recorded d =>
      rw [step, total_add, ih hlapped, recordings_snoc_recorded, List.map_append, List.sum_append,
        List.map_singleton, List.sum_singleton]
    | started now =>
      rw [recordings_snoc history rfl, ← ih hlapped]
      rfl
    | stopped now =>
      have hsince : (run history).since = none := by
        by_contra hsome
        exact hlast ⟨now, rfl, isSome_since_run_iff.1 (Option.isSome_iff_ne_none.2 hsome)⟩
      rw [step, stop_of_since_eq_none hsince, recordings_snoc history rfl, ih hlapped]

theorem recordings_eq_nil_iff : recordings history = [] ↔ ¬ WasRecorded history := by
  rw [recordings, List.filterMap_eq_nil_iff]
  constructor
  · rintro h ⟨d, hd⟩
    cases h _ hd
  · intro h e he
    cases e with
    | recorded d => exact absurd ⟨d, he⟩ h
    | started now => rfl
    | stopped now => rfl

theorem counted_run_of_not_lapped (h : ¬ Lapped history) :
    (run history).counted =
      if recordings history = [] then none
      else some ((recordings history).map Duration.total).sum := by
  have hsome : (run history).counted.isSome = true ↔ WasRecorded history ∨ Lapped history :=
    isSome_counted_run_iff
  have htotal := total_run_of_not_lapped h
  rw [or_iff_left h] at hsome
  rw [total] at htotal
  cases hcounted : (run history).counted with
  | none =>
    rw [if_pos]
    rw [recordings_eq_nil_iff, ← hsome, hcounted]
    exact Bool.false_ne_true
  | some n =>
    rw [hcounted, Option.getD_some] at htotal
    rw [if_neg, htotal]
    rw [recordings_eq_nil_iff, not_not, ← hsome, hcounted]
    rfl

/-- The order of the recorded durations does not matter. -/
theorem counted_run_eq_of_perm {other : List Event} (h : ¬ Lapped history) (h' : ¬ Lapped other)
    (hperm : (recordings history).Perm (recordings other)) :
    (run history).counted = (run other).counted := by
  rw [counted_run_of_not_lapped h, counted_run_of_not_lapped h',
    (hperm.map Duration.total).sum_nat]
  by_cases hnil : recordings other = []
  · rw [if_pos hnil, if_pos (List.perm_nil.1 (hnil ▸ hperm))]
  · have hne : recordings history ≠ [] := fun heq => by
      rw [heq, List.nil_perm] at hperm
      exact hnil hperm
    rw [if_neg hnil, if_neg hne]

end Stopwatch

end AuthGate
