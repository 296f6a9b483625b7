/-
What may be asked of a counter store, as data. A call names the operation and its
key; the type of its answer follows from it. A decision is written as a sequence
of calls (`Interaction`), so it can be answered by the store of this library, by
one that fails on a schedule, or by anything else that answers calls.
-/
import Admission.Store

set_option autoImplicit false

namespace Admission

/-- **A call to a counter store.** -/
inductive Call
  | incrementFixed (key : String) (window : Nat)
  | incrementSliding (key : String) (window limit instant : Nat)
  | read (key : String)
  | reset (key : String)
  | setMarker (key : String) (ttl : Option Nat)
  | hasMarker (key : String)
  deriving DecidableEq

namespace Call

/-- The type of the answer to a call. -/
abbrev Answer : Call → Type
  | incrementFixed .. => FixedCount
  | incrementSliding .. => SlidingCount
  | read _ => Snapshot
  | reset _ => Bool
  | setMarker .. => Unit
  | hasMarker _ => Bool

/-- The key a call works on. -/
def key : Call → String
  | incrementFixed key _ | incrementSliding key .. | read key | reset key | setMarker key _
  | hasMarker key => key

/-- The name of a call's operation. -/
def method : Call → String
  | incrementFixed .. => "fixed"
  | incrementSliding .. => "sliding"
  | read _ => "get"
  | reset _ => "reset"
  | setMarker .. => "set_marker"
  | hasMarker _ => "has_marker"

/-- Whether a call counts a request. -/
def isIncrement : Call → Bool
  | incrementFixed .. | incrementSliding .. => true
  | _ => false

end Call

/-- **A store answers every call.** -/
def Store.answer (s : Store) (now : Nat) : (c : Call) → c.Answer × Store
  | .incrementFixed key window => s.incrementFixed now key window
  | .incrementSliding key window limit instant => s.incrementSliding now key window limit instant
  | .read key => (s.read now key, s)
  | .reset key => s.reset now key
  | .setMarker key ttl => ((), s.setMarker now key ttl)
  | .hasMarker key => (s.hasMarker now key, s)

end Admission
