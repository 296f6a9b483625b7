/-
A counter store as a limiter meets it: with a clock, with outages, and with a
record of what was asked of it.

An outage lets some calls through and then fails every call of the operations it
concerns, before the store is touched. What fails, and how, is a plain value, so a
run under an outage is as much a computation as a run without one.
-/
import Admission.Interaction

set_option autoImplicit false

namespace Admission

/-! ## Outages -/

/-- **A failure of the store.** -/
structure Outage where
  /-- the error each call gets, or `none` if no reply ever comes -/
  error : Option Error
  /-- the operations concerned, by name; none means all of them -/
  methods : List String
  /-- how many of the concerned calls still pass -/
  skip : Nat
  deriving DecidableEq

namespace Outage

/-- Whether an outage concerns a call. -/
def concerns (o : Outage) (call : Call) : Bool :=
  o.methods.isEmpty || call.method ∈ o.methods

/-- The reply that an outage forces on a call, if it does, and the outage as it is
for the next one. -/
def strike (o : Outage) (call : Call) : Option (Reply call.Answer) × Outage :=
  if !o.concerns call then (none, o)
  else match o.skip with
    | skip + 1 => (none, { o with skip := skip })
    | 0 =>
      match o.error with
      | some error => (some (.failed error), o)
      | none => (some .silent, o)

end Outage

/-! ## Backends -/

/-- **A store with a clock, an outage and a record.** -/
structure Backend where
  store : Store
  clock : Clock
  outage : Option Outage
  /-- the calls made, latest first -/
  calls : List Call

namespace Backend

/-- An empty store at a time. -/
def start (now : Nat) : Backend := ⟨Store.empty, ⟨now⟩, none, []⟩

/-- The reply to a call that no outage concerns. -/
def reply (b : Backend) (call : Call) : Reply call.Answer × Backend :=
  let (answer, store) := b.store.answer b.clock.now call
  (.answered answer, { b with store := store })

/-- **One call.** It is recorded whether it fails or not. -/
def answer (b : Backend) (call : Call) : Reply call.Answer × Backend :=
  let b := { b with calls := call :: b.calls }
  match b.outage with
  | none => b.reply call
  | some outage =>
    let (struck, outage) := outage.strike call
    let b := { b with outage := some outage }
    match struck with
    | some reply => (reply, b)
    | none => b.reply call

/-- A conversation with a backend. -/
def run {α : Type} (b : Backend) (m : Interaction α) : α × Backend := m.run answer b

/-- The record taken out: the calls in order, and the backend without them. -/
def takeCalls (b : Backend) : List Call × Backend := (b.calls.reverse, { b with calls := [] })

end Backend

end Admission
