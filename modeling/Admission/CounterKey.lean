/-
Counter keys: the names under which counters and overrides are kept in the store.

A counter belongs to a rule, a dimension, a value along it and, for a fixed
window, a bucket of the clock. All of that is written into one text with colons
between the parts. Ids and values may hold any character, so a colon inside them
is escaped, and so is the escape character itself; no value can then pass for a
part of another key.
-/
import Admission.Rule

set_option autoImplicit false

namespace Admission

/-! ## Escaping -/

/-- One character as it is written inside a key. -/
def CounterKey.escapeChar (c : Char) : List Char :=
  if c = '%' then ['%', '2', '5'] else if c = ':' then ['%', '3', 'A'] else [c]

/-- **A text as it is written inside a key:** free of colons. -/
def CounterKey.escape (s : String) : String :=
  String.ofList (s.toList.flatMap CounterKey.escapeChar)

/-! ## Keys -/

/-- **The identity of one counter.** There is a bucket for a fixed window and none
for a sliding one. -/
structure CounterKey where
  ruleId : String
  dimension : Dimension
  value : String
  bucket : Option Nat
  deriving DecidableEq

namespace CounterKey

/-- The last part of a key: the bucket, or `sw` for a sliding window. -/
def bucketText : Option Nat → String
  | some bucket => Nat.repr bucket
  | none => "sw"

/-- **The text of a key** in a key space. -/
def render (space : String) (k : CounterKey) : String :=
  space ++ ":" ++ escape k.ruleId ++ ":" ++ k.dimension.tag ++ ":" ++ escape k.value ++ ":" ++
    bucketText k.bucket

/-- The bucket of the clock in which a rule counts; no window is shorter than a
second. -/
def bucketOf (rule : Rule) (nowSeconds : Nat) : Option Nat :=
  match rule.algorithm with
  | .fixedWindow => some (nowSeconds / max rule.windowSeconds 1)
  | .slidingWindow => none

/-- The key of a rule for a value at a time. -/
def forValue (rule : Rule) (value : String) (nowSeconds : Nat) : CounterKey :=
  ⟨rule.id, rule.dimension, value, bucketOf rule nowSeconds⟩

/-- **The key of a rule for a request at a time;** `none` if the request has no
value along the rule's dimension. -/
def forRequest (rule : Rule) (request : Request) (nowSeconds : Nat) : Option CounterKey :=
  (rule.valueOf request).map fun value => forValue rule value nowSeconds

end CounterKey

/-- **The text under which an override is kept** in a key space. -/
def overrideKey (space : String) (dimension : Dimension) (value : String) : String :=
  space ++ ":whitelist:" ++ dimension.tag ++ ":" ++ CounterKey.escape value

/-- The key space used when none is configured. -/
def defaultKeySpace : String := "turnstile"

end Admission
