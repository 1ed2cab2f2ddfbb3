import AuthGate.Server.Diagnostics

set_option autoImplicit false

/-! # The life of a server

A server is started and stopped, and may be started again. Every start that succeeds has a task that
serves until it exits, which may be after a later start. Each of these steps sets whether the server
is ready. -/

namespace AuthGate

/-- A step in the life of a server. -/
inductive LifeStep where
  /-- A start that failed. -/
  | failed
  /-- A start that succeeded. -/
  | started
  | stopped
  /-- The exit of the task of some start. -/
  | exited (task : Nat)
  deriving DecidableEq, Repr

/-- Where a server stands. -/
structure Lifecycle where
  readiness : Readiness := .notReady
  /-- The number of the next task. -/
  nextTask : Nat := 0
  /-- The tasks that serve. -/
  serving : List Nat := []
  deriving DecidableEq, Repr

namespace Lifecycle

/-- What follows a step. Only a task that serves can exit. -/
def step (l : Lifecycle) : LifeStep → Lifecycle
  | .failed => { l with readiness := .notReady }
  | .started =>
    { readiness := .ok, nextTask := l.nextTask + 1, serving := l.serving ++ [l.nextTask] }
  | .stopped => { l with readiness := .notReady }
  | .exited task =>
    if l.serving.contains task then
      { l with readiness := .notReady, serving := l.serving.erase task }
    else l

/-- What follows several steps. -/
def run (l : Lifecycle) (steps : List LifeStep) : Lifecycle := steps.foldl step l

end Lifecycle

end AuthGate
