set_option autoImplicit false

/-! # Failures of a call

Whatever goes wrong, at start-up or during a call, ends as a failure: a kind and the text of its
cause. The kind decides how the failure is worded, which status the caller is given and whether
the call's transaction is aborted. -/

namespace AuthGate

/-- What kind of thing went wrong. -/
inductive FailureKind where
  /-- Bad or ambiguous configuration. -/
  | config
  /-- A listener's address or its binding. -/
  | listener
  /-- No evaluation could be started. -/
  | evalStart
  /-- The store refused to open or close a transaction. -/
  | store
  /-- The caller's deadline passed before the query ran. -/
  | timeout
  /-- The policy input could not be built from the request. -/
  | inputConversion
  /-- The policy input could not be turned into a value of the engine. -/
  | valueConversion
  /-- The policy could not be prepared or evaluated. -/
  | evaluation
  /-- The decision could not be shaped into a response. -/
  | responseShaping
  /-- The decision could not be written to the audit log. -/
  | logging
  deriving DecidableEq, Repr

/-- A kind of failure and the text of its cause. -/
structure Failure where
  kind : FailureKind
  message : String
  deriving DecidableEq, Repr

/-- The gRPC status codes that are given out. -/
inductive StatusCode where
  | ok
  | unknown
  | deadlineExceeded
  | permissionDenied
  | failedPrecondition
  | outOfRange
  | internal
  deriving DecidableEq, Repr

/-- The number of a status code on the wire. -/
def StatusCode.toInt : StatusCode → Int
  | .ok => 0
  | .unknown => 2
  | .deadlineExceeded => 4
  | .permissionDenied => 7
  | .failedPrecondition => 9
  | .outOfRange => 11
  | .internal => 13

/-- A failed gRPC call as its caller sees it. -/
structure CallStatus where
  code : StatusCode
  message : String
  deriving DecidableEq, Repr

namespace FailureKind

/-- What a failure of the kind is introduced with. -/
def introduction : FailureKind → String
  | .config => "invalid config: "
  | .listener => "listener error: "
  | .evalStart => "unable to start new evaluation: "
  | .store => "storage error: "
  | .timeout => "check request timed out before query execution: "
  | .inputConversion => "failed to build policy input: "
  | .valueConversion => "failed to convert input to policy value: "
  | .evaluation => "policy evaluation error: "
  | .responseShaping => ""
  | .logging => "decision logging failed: "

/-- The status a failure of the kind is reported with. -/
def code : FailureKind → StatusCode
  | .timeout => .deadlineExceeded
  | .config => .failedPrecondition
  | .logging => .unknown
  | _ => .internal

end FailureKind

namespace Failure

/-- The text of the failure for people. -/
def text (f : Failure) : String := f.kind.introduction ++ f.message

/-- Whether the transaction of the call is aborted; it is committed after any other failure. -/
def aborts (f : Failure) : Bool := f.kind == .evaluation

/-- The status that the caller is given. -/
def status (f : Failure) : CallStatus := ⟨f.kind.code, f.text⟩

/-- The failure told as part of something larger. Only what went wrong with a decision's shape is
    told so, since only there the part matters. -/
def within (context : String) (f : Failure) : Failure :=
  match f.kind with
  | .responseShaping => { f with message := context ++ ": " ++ f.message }
  | _ => f

end Failure

end AuthGate
