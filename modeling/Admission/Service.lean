/-
A limiter at work: the limiter, the backend it counts in, and one clock for both.

Everything that can happen to a limiter from outside is a `Command`: a request to
check, an administrator's question or order, the passing of time, an outage. A
command is answered by a `Report` and leaves a service behind, so a whole history
is a fold over its commands (`Service.run`).
-/
import Admission.Backend
import Admission.Limiter

set_option autoImplicit false

namespace Admission

/-! ## Commands -/

/-- **What can happen to a limiter.** -/
inductive Command
  | check (request : Request)
  | status (request : Request)
  | reset (ruleId : String) (request : Request)
  | resetFor (ruleIds : List String) (source : Source)
  | addOverride (dimension : Dimension) (value : String) (ttl : Option Nat)
  | removeOverride (dimension : Dimension) (value : String)
  /-- other rules are put in force, if they can be used -/
  | reload (rules : List Rule) (defaults : DefaultLimits)
  | advance (millis : Nat)
  | setClock (now : Nat)
  /-- the store is swept -/
  | purge
  /-- an outage begins in place of the present one, or all outages end -/
  | setOutage (outage : Option Outage)

/-- **What a command is answered.** -/
inductive Report
  | decision (result : Except Error Decision) (metrics : List Metric)
  | usage (result : Except Error (List Limiter.RuleStatus))
  /-- whether there was something to remove -/
  | removed (result : Except Error Bool)
  | removedCount (result : Except Error Nat)
  | acknowledged (result : Except Error Unit)
  /-- how many rules are in force now -/
  | reloaded (result : Except Error Nat)
  /-- the clock's time -/
  | time (now : Nat)
  /-- how many entries are gone -/
  | purged (count : Nat)

/-! ## Services -/

/-- **A limiter with its backend.** -/
structure Service where
  limiter : Limiter
  backend : Backend

namespace Service

/-- A limiter over an empty store at a time. -/
def start (limiter : Limiter) (now : Nat) : Service := ⟨limiter, .start now⟩

/-- The time at which a command is carried out. -/
def now (s : Service) : Nat := s.backend.clock.now

/-- A conversation with the backend. -/
def converse {α : Type} (s : Service) (m : Interaction α) : α × Service :=
  let (value, backend) := s.backend.run m
  (value, { s with backend := backend })

/-- Checking a request now. -/
def check (s : Service) (request : Request) :
    (Except Error Decision × List Metric) × Service :=
  s.converse (s.limiter.check request s.now)

/-- **Carrying out a command.** -/
def handle (s : Service) : Command → Report × Service
  | .check request =>
    let ((result, metrics), s') := s.check request
    (.decision result metrics, s')
  | .status request =>
    let (result, s') := s.converse (s.limiter.status request s.now)
    (.usage result, s')
  | .reset ruleId request =>
    let (result, s') := s.converse (s.limiter.reset ruleId request s.now)
    (.removed result, s')
  | .resetFor ruleIds source =>
    let (result, s') := s.converse (s.limiter.resetFor ruleIds source s.now)
    (.removedCount result, s')
  | .addOverride dimension value ttl =>
    let (result, s') := s.converse (s.limiter.addOverride dimension value ttl)
    (.acknowledged result, s')
  | .removeOverride dimension value =>
    let (result, s') := s.converse (s.limiter.removeOverride dimension value)
    (.removed result, s')
  | .reload rules defaults =>
    match RuleSet.build rules defaults with
    | .ok rules =>
      (.reloaded (.ok rules.rules.length), { s with limiter := s.limiter.reload rules })
    | .error error => (.reloaded (.error error), s)
  | .advance millis =>
    let clock := s.backend.clock.advance millis
    (.time clock.now, { s with backend := { s.backend with clock := clock } })
  | .setClock now =>
    (.time now, { s with backend := { s.backend with clock := s.backend.clock.set now } })
  | .purge =>
    let (count, store) := s.backend.store.purge s.now
    (.purged count, { s with backend := { s.backend with store := store } })
  | .setOutage outage =>
    (.acknowledged (.ok ()), { s with backend := { s.backend with outage := outage } })

/-- **A history:** the answers to its commands in order, and the service after it. -/
def run (s : Service) : List Command → List Report × Service
  | [] => ([], s)
  | command :: rest =>
    let (report, s) := s.handle command
    let (reports, s) := s.run rest
    (report :: reports, s)

/-- A history in two parts. -/
theorem run_append (s : Service) (first second : List Command) :
    s.run (first ++ second) =
      ((s.run first).1 ++ ((s.run first).2.run second).1, ((s.run first).2.run second).2) := by
  induction first generalizing s with
  | nil => rfl
  | cons command rest ih => simp [run, ih]

end Service

end Admission
