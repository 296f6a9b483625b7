/-
Measurements: what is sent out about each check, beside its answer. Every check is
counted once under its outcome; a denial and a failure of the store are counted
besides.
-/
import Admission.Decision

set_option autoImplicit false

namespace Admission

/-- **An event that is measured.** -/
inductive Metric
  | checked (outcome : Outcome) (rule : Option String)
  | violated (rule : String) (dimension : Dimension)
  | storeFailed (rule : String) (timedOut : Bool)
  deriving DecidableEq

/-- **A sample as it is sent:** a counter with its increment, or a latency without
one. -/
structure Sample where
  name : String
  labels : List (String × String)
  increment : Option Nat
  deriving DecidableEq

/-- The samples of an event. A check is counted and timed. -/
def Metric.samples : Metric → List Sample
  | checked outcome rule =>
    [⟨"turnstile_checks_total", [("outcome", outcome.label), ("rule", rule.getD "none")], some 1⟩,
      ⟨"turnstile_check_duration_seconds", [("outcome", outcome.label)], none⟩]
  | violated rule dimension =>
    [⟨"turnstile_violations_total", [("rule", rule), ("dimension", dimension.tag)], some 1⟩]
  | storeFailed rule timedOut =>
    [⟨"turnstile_store_errors_total",
      [("rule", rule), ("kind", if timedOut then "timeout" else "unavailable")], some 1⟩]

/-- **What is measured about an evaluation,** in order. -/
def Ending.metrics (failOpen : Bool) (e : Ending) : List Metric :=
  let events : List Metric :=
    match e with
    | denied m => [.violated m.rule.id m.rule.dimension]
    | failed rule error => [.storeFailed rule.id error.isTimeout]
    | _ => []
  events ++ [.checked (e.outcome failOpen) (e.appliedRule.map Rule.id)]

end Admission
