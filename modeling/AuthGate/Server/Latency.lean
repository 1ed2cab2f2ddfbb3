import AuthGate.Decimal.Bounded
import AuthGate.Fields

set_option autoImplicit false

/-! # The latency histogram

How long calls take: the number of observations, their sum, and how many lie within each of a row of
bounds. The text for a monitoring system gives the counts within a bound cumulatively. -/

namespace AuthGate

/-- Observations in the order in which they were made, in nanoseconds. -/
structure Latency where
  observations : List Nat := []
  deriving DecidableEq, Repr

namespace Latency

/-- One observation more. -/
def observe (elapsed : Nat) (l : Latency) : Latency := ⟨l.observations ++ [elapsed]⟩

/-- A duration in seconds: the whole seconds and the rest are rounded first, then their sum. -/
def seconds (nanos : Nat) : Double :=
  (Double.ofInt (nanos / 1000000000 : Nat)).add
    ((Double.ofInt (nanos % 1000000000 : Nat)).div (Double.ofInt 1000000000))

/-- The sum of the observations in seconds, rounded after each. -/
def sum (l : Latency) : Double :=
  l.observations.foldl (fun s n => s.add (seconds n)) (.zero false)

/-- The bounds in seconds. -/
def bounds : List Double :=
  [(1, -6), (5, -6), (1, -5), (5, -5), (1, -4), (5, -4), (1, -3), (3, -3), (5, -3), (1, -1),
    (1, 0)].map fun (digit, e) => .ofDecimal false digit e

/-- The number of observations that do not exceed a bound. -/
def within (bound : Double) (l : Latency) : Nat :=
  (l.observations.filter fun n => (seconds n).le bound).length

/-! ## Text -/

/-- Numbers of the text are positional from `1e-6` up to `1e21`. -/
def layout : DecimalLayout := ⟨-6, 21, false⟩

def metricName : String := "grpc_request_duration_seconds"

/-- The label that says which handler was called. -/
def handlerLabel : String := "handler=\"check\""

/-- A line of the histogram. -/
def line (suffix labels value : String) : String :=
  metricName ++ suffix ++ "\x7b" ++ labels ++ "\x7d " ++ value ++ "\n"

/-- The line of a bound. -/
def bucketLine (bound : String) (count : Nat) : String :=
  line "_bucket" (s!"le=\"{bound}\"," ++ handlerLabel) (toString count)

/-- The lines of the observations; there are none before the first one. -/
def seriesText (l : Latency) : String :=
  if l.observations.isEmpty then ""
  else
    line "_sum" handlerLabel (String.ofList (l.sum.renderBounded layout)) ++
      line "_count" handlerLabel (toString l.observations.length) ++
      String.join (bounds.map fun b =>
        bucketLine (String.ofList (b.renderBounded layout)) (l.within b)) ++
      bucketLine "+Inf" l.observations.length

/-- The histogram's part of the text. -/
def text (l : Latency) : String :=
  s!"# HELP {metricName} A histogram of duration for requests.\n# TYPE {metricName} histogram\n" ++
    l.seriesText

/-- The text of all metrics: of the histogram, if there is one. -/
def exposition (l : Option Latency) : String := (l.map text).getD "" ++ "# EOF\n"

end Latency

end AuthGate
