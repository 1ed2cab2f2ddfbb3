import AuthGate.Fields

set_option autoImplicit false

/-! # Timers

Named durations of one call. A timer that runs has the moment of its start; what has been recorded
under a name adds up. A total that no duration can hold is a fault that nothing recovers from. -/

namespace AuthGate

/-- The most nanoseconds of a duration: `2 ^ 64 - 1` seconds and 999,999,999 nanoseconds. -/
def maxDuration : Nat := (0x10000000000000000 - 1) * 1000000000 + 999999999

/-- Running timers with the moments of their starts, and recorded durations, in nanoseconds. -/
structure Timers where
  running : List (String × Nat) := []
  recorded : List (String × Nat) := []
  deriving DecidableEq, Repr

namespace Timers

/-- A timer started, or started anew. -/
def start (name : String) (now : Nat) (t : Timers) : Timers :=
  { t with running := Fields.insert name now t.running }

/-- A duration added to a timer; none if the total is too long. -/
def record (name : String) (elapsed : Nat) (t : Timers) : Option Timers :=
  let total := (Fields.get? name t.recorded).getD 0 + elapsed
  if maxDuration < total then none
  else some { t with recorded := Fields.insert name total t.recorded }

/-- A timer stopped and its duration, if it was running. -/
def stop (name : String) (now : Nat) (t : Timers) : Option (Option Nat × Timers) :=
  match Fields.get? name t.running with
  | none => some (none, t)
  | some began => do
    let elapsed := now - began
    let t ← ({ t with running := Fields.erase name t.running } : Timers).record name elapsed
    return (some elapsed, t)

/-- Every running timer stopped. -/
def stopAll (now : Nat) (t : Timers) : Option Timers :=
  (t.running.map (·.1)).foldlM (fun t name => (t.stop name now).map (·.2)) t

/-- The recorded durations in nanoseconds, as far as 64 bits hold them. -/
def all (t : Timers) : List (String × Nat) := Fields.mapValues (· % 0x10000000000000000) t.recorded

end Timers

/-- Durations that were measured elsewhere, in nanoseconds: a name occurs once, and 64 bits hold
    each duration. -/
structure Measured where
  entries : List (String × UInt64) := []
  distinct : (entries.map (·.1)).Nodup := by simp

/-- Measured durations from a list in any order; the last one of a name stays. -/
def Measured.ofList (entries : List (String × UInt64)) : Measured :=
  ⟨Fields.ofList entries, (Fields.sorted_ofList entries).nodup⟩

/-- The timer of the whole call. -/
def handlerTimer : String := "timer_server_handler_ns"

/-- The timer of building the policy input. -/
def inputTimer : String := "timer_rego_input_parse_ns"

/-- The timer of evaluating the query. -/
def evalTimer : String := "timer_rego_query_eval_ns"

end AuthGate
