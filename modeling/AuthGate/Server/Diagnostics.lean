import AuthGate.Server.Latency

set_option autoImplicit false

/-! # Diagnostics over HTTP

Two pages for those who run the server: whether it is ready, and its metrics. Only reading them is
allowed, and a request for the head of a page gets the page without its body. -/

namespace AuthGate

/-- Whether calls can be answered. -/
inductive Readiness where
  | notReady
  | ok
  deriving DecidableEq, Repr

namespace Diagnostics

/-- An HTTP response. -/
structure Page where
  status : Nat
  contentType : Option String
  body : String
  deriving DecidableEq, Repr

/-- The page that says whether the server is ready. -/
def health : Readiness → Page
  | .ok => ⟨200, some "text/plain; charset=utf-8", "ok"⟩
  | .notReady => ⟨503, some "text/plain; charset=utf-8", "not ready"⟩

/-- The page of the metrics. -/
def metrics (l : Option Latency) : Page :=
  ⟨200, some "application/openmetrics-text; version=1.0.0; charset=utf-8", Latency.exposition l⟩

/-- The page at a path. -/
def page? (readiness : Readiness) (l : Option Latency) (path : String) : Option Page :=
  match path with
  | "/health" => some (health readiness)
  | "/metrics" => some (metrics l)
  | _ => none

/-- A target without its query. -/
def pathOf (target : String) : String :=
  String.ofList (target.toList.takeWhile fun c => c != '?' && c != '#')

/-- The response to a request. -/
def respond (readiness : Readiness) (l : Option Latency) (method target : String) : Page :=
  match page? readiness l (pathOf target) with
  | none => ⟨404, none, ""⟩
  | some page =>
    match method with
    | "GET" => page
    | "HEAD" => { page with body := "" }
    | _ => ⟨405, none, ""⟩

end Diagnostics

end AuthGate
