import AuthGate.Proofs.Call.Record
import AuthGate.Store.Basic
import Mathlib.Data.List.Perm.Basic

set_option autoImplicit false

/-! # The books of a store

What a store knows of its transactions, and how it follows from what calls did: which transactions
are open, which numbers were given out, and how many ended in which way. The main statements are
`Balanced.begin` and `Balanced.close`: the books stay right when a transaction begins or ends. -/

namespace AuthGate

/-- What a store knows of transactions. -/
structure Ledger where
  nextId : Nat
  opened : List Nat
  commits : Nat
  aborts : Nat
  deriving DecidableEq, Repr

/-- The books of a store. -/
def Store.ledger (s : Store) : Ledger := ⟨s.nextId, s.opened, s.commits, s.aborts⟩

namespace CallEvent

/-- The number of the transaction that was opened. -/
@[simp] def openedId : CallEvent → Option Nat
  | .opened (.ok t) => some t.id
  | .opened (.error _) | .identified _ | .logged .. | .closed .. => none

/-- The number of the transaction that was closed. -/
@[simp] def closedId : CallEvent → Option Nat
  | .closed t _ (.ok _) => some t.id
  | .closed _ _ (.error _) | .identified _ | .opened _ | .logged .. => none

/-- Whether a transaction was closed in this way. -/
@[simp] def closes (abort : Bool) : CallEvent → Bool
  | .closed _ a (.ok _) => a == abort
  | .closed _ _ (.error _) | .identified _ | .opened _ | .logged .. => false

end CallEvent

/-- The books follow from those at the beginning and from what calls did since. -/
structure Balanced (initial now : Ledger) (events : List CallEvent) : Prop where
  le : initial.nextId ≤ now.nextId
  numbers : (events.filterMap CallEvent.openedId).Perm
    (List.range' initial.nextId (now.nextId - initial.nextId))
  opened : (now.opened ++ events.filterMap CallEvent.closedId).Perm
    (initial.opened ++ events.filterMap CallEvent.openedId)
  commits : now.commits = initial.commits + events.countP (CallEvent.closes false)
  aborts : now.aborts = initial.aborts + events.countP (CallEvent.closes true)

variable {initial now : Ledger} {events : List CallEvent}

theorem Balanced.refl (l : Ledger) : Balanced l l [] where
  le := Nat.le_refl _
  numbers := by simp
  opened := by simp
  commits := rfl
  aborts := rfl

/-- The order of what calls did does not matter. -/
theorem Balanced.perm (h : Balanced initial now events) {others : List CallEvent}
    (hp : others.Perm events) : Balanced initial now others where
  le := h.le
  numbers := (hp.filterMap _).trans h.numbers
  opened :=
    ((hp.filterMap _).append_left _).trans (h.opened.trans ((hp.filterMap _).symm.append_left _))
  commits := by rw [h.commits, hp.countP_eq]
  aborts := by rw [h.aborts, hp.countP_eq]

/-- No number is given out twice. -/
theorem Balanced.nodup (h : Balanced initial now events) :
    (events.filterMap CallEvent.openedId).Nodup :=
  h.numbers.nodup_iff.2 List.nodup_range'

section Snoc

variable {α β : Type} {f : α → Option β} {l : List α} {a : α}

theorem filterMap_snoc_of_none (h : f a = none) : (l ++ [a]).filterMap f = l.filterMap f := by
  simp [List.filterMap_append, h]

theorem filterMap_snoc_of_some {b : β} (h : f a = some b) :
    (l ++ [a]).filterMap f = l.filterMap f ++ [b] := by
  simp [List.filterMap_append, h]

theorem countP_snoc (p : α → Bool) : (l ++ [a]).countP p = l.countP p + (p a).toNat := by
  cases h : p a <;> simp [List.countP_append, h]

end Snoc

/-- What does not concern transactions does not change the books. -/
theorem Balanced.snoc (h : Balanced initial now events) {e : CallEvent} (ho : e.openedId = none)
    (hc : e.closedId = none) : Balanced initial now (events ++ [e]) := by
  have hcloses : ∀ abort, e.closes abort = false := by
    intro abort
    cases e with
    | closed t a r =>
      cases r with
      | error f => rfl
      | ok u => simp [CallEvent.closedId] at hc
    | _ => rfl
  refine ⟨h.le, ?_, ?_, ?_, ?_⟩
  · rw [filterMap_snoc_of_none ho]
    exact h.numbers
  · rw [filterMap_snoc_of_none ho, filterMap_snoc_of_none hc]
    exact h.opened
  · rw [countP_snoc, hcloses]
    exact h.commits
  · rw [countP_snoc, hcloses]
    exact h.aborts

/-- The books stay right when a transaction begins. -/
theorem Balanced.begin {s : Store} (h : Balanced initial s.ledger events) :
    Balanced initial s.begin.2.ledger (events ++ [.opened (.ok s.begin.1)]) := by
  have hle : initial.nextId ≤ s.nextId := h.le
  -- the number given out is the next one in the range
  have hlast : List.range' initial.nextId (s.nextId + 1 - initial.nextId) =
      List.range' initial.nextId (s.nextId - initial.nextId) ++ [s.nextId] := by
    rw [Nat.succ_sub hle, List.range'_1_concat, Nat.add_sub_cancel' hle]
  have hopenedIds : (events ++ [CallEvent.opened (.ok s.begin.1)]).filterMap CallEvent.openedId =
      events.filterMap CallEvent.openedId ++ [s.nextId] := filterMap_snoc_of_some rfl
  refine ⟨Nat.le_succ_of_le hle, ?_, ?_, ?_, ?_⟩
  · rw [hopenedIds]
    exact hlast ▸ h.numbers.append_right [s.nextId]
  · rw [hopenedIds, filterMap_snoc_of_none rfl, ← List.append_assoc]
    exact (List.perm_append_singleton s.nextId _).symm.trans (h.opened.append_right [s.nextId])
  · rw [countP_snoc]
    exact h.commits
  · rw [countP_snoc]
    exact h.aborts

/-- A transaction that is open can be closed. -/
theorem Store.exists_close_eq_ok {s : Store} {t : Transaction} (ht : t.id ∈ s.opened)
    (abort : Bool) : ∃ s', s.close t abort = .ok s' :=
  ⟨_, by rw [close, if_pos (by simpa using ht)]⟩

/-- The books stay right when a transaction ends. -/
theorem Balanced.close {s s' : Store} (h : Balanced initial s.ledger events) {t : Transaction}
    {abort : Bool} (ht : t.id ∈ s.opened) (hs : s.close t abort = .ok s') :
    Balanced initial s'.ledger (events ++ [.closed t abort (.ok ())]) := by
  rw [Store.close, if_pos (by simpa using ht)] at hs
  cases hs
  have hclosedIds : (events ++ [CallEvent.closed t abort (.ok ())]).filterMap CallEvent.closedId =
      events.filterMap CallEvent.closedId ++ [t.id] := filterMap_snoc_of_some rfl
  have hopened : (s.opened.erase t.id ++ (events.filterMap CallEvent.closedId ++ [t.id])).Perm
      (initial.opened ++ events.filterMap CallEvent.openedId) := by
    have herase : (s.opened.erase t.id ++ (events.filterMap CallEvent.closedId ++ [t.id])).Perm
        (s.opened ++ events.filterMap CallEvent.closedId) := by
      rw [← List.append_assoc]
      refine (List.perm_append_singleton _ _).trans ?_
      exact (List.perm_cons_erase ht).symm.append_right _
    exact herase.trans h.opened
  -- how the transaction ends matters only for the two counts
  refine ⟨?_, ?_, ?_, ?_, ?_⟩
  · cases abort <;> exact h.le
  · rw [filterMap_snoc_of_none rfl]
    cases abort <;> exact h.numbers
  · rw [hclosedIds, filterMap_snoc_of_none rfl]
    cases abort <;> exact hopened
  · rw [countP_snoc]
    cases abort with
    | true => exact h.commits
    | false => exact congrArg (· + 1) h.commits
  · rw [countP_snoc]
    cases abort with
    | true => exact congrArg (· + 1) h.aborts
    | false => exact h.aborts

end AuthGate
