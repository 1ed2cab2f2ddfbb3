import AuthGate.Call.Pipeline

set_option autoImplicit false

/-! # The timers of a call by name

A timer that was started is shown in the end, whether it was stopped by itself or with all others,
and so is one under which something was recorded; no timer is shown for another reason. The main
statement is `names_all_of_stopAll`. -/

namespace AuthGate.Timers

/-- Whether a timer runs, or has something recorded. -/
def Has (name : String) (t : Timers) : Prop :=
  name ∈ t.running.map (·.1) ∨ name ∈ t.recorded.map (·.1)

variable {t t' : Timers} {name other : String}

@[simp] theorem not_has_empty : ¬({} : Timers).Has name := by
  simp [Has]

@[simp] theorem has_start {now : Nat} :
    (t.start other now).Has name ↔ name = other ∨ t.Has name := by
  simp only [Has, start, Fields.mem_names_insert, or_assoc]

/-- A duration is recorded under its name, and what runs keeps running. -/
theorem names_of_record {elapsed : Nat} (h : t.record other elapsed = some t') (name : String) :
    t'.running = t.running ∧
      (name ∈ t'.recorded.map (·.1) ↔ name = other ∨ name ∈ t.recorded.map (·.1)) := by
  simp only [record] at h
  split at h
  · cases h
  · cases h
    exact ⟨rfl, Fields.mem_names_insert⟩

theorem has_of_record {elapsed : Nat} (h : t.record other elapsed = some t') :
    t'.Has name ↔ name = other ∨ t.Has name := by
  obtain ⟨hrunning, hrecorded⟩ := names_of_record h name
  simp only [Has, hrunning, hrecorded]
  exact or_left_comm

/-- A stopped timer does not run, whether it did before or not; none is forgotten. -/
theorem names_of_stop {now : Nat} {r : Option Nat} (h : t.stop other now = some (r, t')) :
    (name ∈ t'.running.map (·.1) ↔ name ≠ other ∧ name ∈ t.running.map (·.1)) ∧
      (t'.Has name ↔ t.Has name) := by
  cases hrun : Fields.get? other t.running with
  | none =>
    simp only [stop, hrun, Option.some.injEq, Prod.mk.injEq] at h
    obtain ⟨-, rfl⟩ := h
    have hnot := Fields.get?_eq_none_iff.1 hrun
    exact ⟨⟨fun hname => ⟨fun he => hnot (he ▸ hname), hname⟩, And.right⟩, Iff.rfl⟩
  | some began =>
    have hruns : other ∈ t.running.map (·.1) := Decidable.byContradiction fun hnot => by
      simp [Fields.get?_eq_none_iff.2 hnot] at hrun
    simp only [stop, hrun, bind, Option.bind_eq_some_iff] at h
    obtain ⟨t₁, hrecord, hret⟩ := h
    obtain ⟨-, rfl⟩ : some (now - began) = r ∧ t₁ = t' := by simpa [pure] using hret
    obtain ⟨hrunning, hrecorded⟩ := names_of_record hrecord name
    simp only [Has, hrunning, hrecorded, Fields.mem_names_erase, true_and]
    by_cases he : name = other
    · subst he
      simp [hruns]
    · simp [he]

/-- What was measured elsewhere is recorded under its names. -/
theorem has_of_recordMetrics {m : Measured} (h : Pipeline.recordMetrics m t = some t') :
    t'.Has name ↔ name ∈ m.entries.map (·.1) ∨ t.Has name := by
  simp only [Pipeline.recordMetrics] at h
  generalize m.entries = entries at h ⊢
  induction entries generalizing t with
  | nil =>
    obtain rfl : t = t' := by simpa using h
    simp
  | cons e rest ih =>
    obtain ⟨t₁, hrecord, hrest⟩ := Option.bind_eq_some_iff.1 h
    rw [ih hrest, has_of_record hrecord, List.map_cons, List.mem_cons, or_assoc]
    exact or_left_comm

/-- Once every timer that runs has been stopped, those that were there are the recorded ones. -/
theorem names_of_stopEach {names : List String} {now : Nat}
    (hall : ∀ name ∈ t.running.map (·.1), name ∈ names)
    (h : names.foldlM (fun (t : Timers) name => (t.stop name now).map (·.2)) t = some t') :
    name ∈ t'.recorded.map (·.1) ↔ t.Has name := by
  induction names generalizing t with
  | nil =>
    obtain rfl : t = t' := by simpa using h
    have hnone : name ∉ t.running.map (·.1) := fun hname => by simpa using hall name hname
    simp only [Has, hnone, false_or]
  | cons first rest ih =>
    obtain ⟨t₁, hmap, hrest⟩ := Option.bind_eq_some_iff.1 h
    obtain ⟨⟨r, t₂⟩, hstop, rfl⟩ := Option.map_eq_some_iff.1 hmap
    rw [ih _ hrest, (names_of_stop hstop).2]
    intro other hother
    obtain ⟨hne, hruns⟩ := (names_of_stop hstop).1.1 hother
    exact (List.mem_cons.1 (hall other hruns)).resolve_left hne

/-- In the end the timers are shown that were started or recorded. -/
theorem names_all_of_stopAll {now : Nat} (h : t.stopAll now = some t') :
    name ∈ t'.all.map (·.1) ↔ t.Has name := by
  rw [all, Fields.names_mapValues]
  exact names_of_stopEach (fun _ h => h) h

end AuthGate.Timers
