import AuthGate.Failure

set_option autoImplicit false

/-! # The cache of the compiled query

A query is compiled once and kept until the modules change. Then a new slot takes the place of the
old one; a compilation that is under way ends in the slot in which it began, where no later caller
looks. A compilation that fails leaves its slot empty. -/

namespace AuthGate

/-- A place for one compiled query. -/
inductive Slot (α : Type) where
  | empty
  | compiling
  | ready (query : α)
  deriving DecidableEq, Repr

/-- All slots, oldest first. The last one is in use; callers that began before it may still be busy
    with others. -/
structure QueryCache (α : Type) where
  slots : List (Slot α) := [.empty]
  deriving Repr

/-- What a slot holds after the end of a compilation for it. -/
def Slot.ofResult {α : Type} : Except Failure α → Slot α
  | .ok q => .ready q
  | .error _ => .empty

@[simp] theorem Slot.ofResult_eq_ready_iff {α : Type} {r : Except Failure α} {q : α} :
    ofResult r = .ready q ↔ r = .ok q := by
  cases r <;> simp [ofResult]

namespace QueryCache

variable {α : Type}

/-- The number of the slot in use, which is how often the cache has been invalidated. -/
def epoch (c : QueryCache α) : Nat := c.slots.length - 1

/-- The slot of a number. -/
def slot (n : Nat) (c : QueryCache α) : Slot α := c.slots[n]?.getD .empty

/-- The cache with a slot changed. -/
def put (n : Nat) (s : Slot α) (c : QueryCache α) : QueryCache α := ⟨c.slots.set n s⟩

/-- Whether the slot in use holds a query. -/
def isInitialized (c : QueryCache α) : Bool :=
  match c.slot c.epoch with
  | .ready _ => true
  | _ => false

/-- The cache with a new slot in use. -/
def invalidate (c : QueryCache α) : QueryCache α := ⟨c.slots ++ [.empty]⟩

/-- The cache after the end of the compilation for a slot. -/
def finish (n : Nat) (r : Except Failure α) (c : QueryCache α) : QueryCache α :=
  c.put n (.ofResult r)

/-- The query of the slot in use, compiled if there is none. The compilation may change the cache,
    and whatever else the state `σ` holds. -/
def getOrCompile {σ : Type} (get : σ → QueryCache α) (set : QueryCache α → σ → σ)
    (compile : σ → Except Failure α × σ) (s : σ) : Except Failure α × σ :=
  let n := (get s).epoch
  match (get s).slot n with
  | .ready q => (.ok q, s)
  | _ =>
    let (r, s) := compile (set ((get s).put n .compiling) s)
    (r, set ((get s).finish n r) s)

/-! ## Slots after a change -/

@[simp] theorem length_put (n : Nat) (s : Slot α) (c : QueryCache α) :
    (c.put n s).slots.length = c.slots.length := by
  simp [put]

@[simp] theorem length_finish (n : Nat) (r : Except Failure α) (c : QueryCache α) :
    (c.finish n r).slots.length = c.slots.length := by
  simp [finish]

@[simp] theorem epoch_put (n : Nat) (s : Slot α) (c : QueryCache α) :
    (c.put n s).epoch = c.epoch := by
  simp [epoch]

@[simp] theorem epoch_finish (n : Nat) (r : Except Failure α) (c : QueryCache α) :
    (c.finish n r).epoch = c.epoch := by
  simp [epoch]

/-- A slot in which there is something is one of the cache's. -/
theorem lt_length_of_slot_ne_empty {n : Nat} {c : QueryCache α} (h : c.slot n ≠ .empty) :
    n < c.slots.length := by
  refine Nat.lt_of_not_le fun hle => h ?_
  rw [slot, List.getElem?_eq_none hle, Option.getD_none]

theorem slot_put {n : Nat} {c : QueryCache α} (hn : n < c.slots.length) (s : Slot α) (m : Nat) :
    (c.put n s).slot m = if n = m then s else c.slot m := by
  simp only [slot, put, List.getElem?_set]
  by_cases hnm : n = m
  · subst hnm
    simp [hn]
  · simp [hnm]

theorem slot_finish {n : Nat} {c : QueryCache α} (hn : n < c.slots.length) (r : Except Failure α)
    (m : Nat) : (c.finish n r).slot m = if n = m then .ofResult r else c.slot m :=
  slot_put hn _ m

/-- A new slot is empty. -/
theorem slot_epoch_invalidate (c : QueryCache α) :
    c.invalidate.slot c.invalidate.epoch = .empty := by
  simp [slot, epoch, invalidate]

/-- The old slots stay as they are. -/
theorem slot_invalidate (c : QueryCache α) (n : Nat) : c.invalidate.slot n = c.slot n := by
  simp only [slot, invalidate]
  by_cases hn : n < c.slots.length
  · rw [List.getElem?_append_left hn]
  · rw [List.getElem?_append_right (Nat.not_lt.1 hn), List.getElem?_eq_none (Nat.not_lt.1 hn)]
    cases n - c.slots.length <;> simp

theorem isInitialized_iff {c : QueryCache α} :
    c.isInitialized = true ↔ ∃ q, c.slot c.epoch = .ready q := by
  simp only [isInitialized]
  cases c.slot c.epoch <;> simp

end QueryCache

end AuthGate
