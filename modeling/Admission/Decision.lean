/-
What comes out of a check.

An evaluation ends in one of eight ways (`Ending`). Everything that is told about
it follows from the ending: the decision that the client gets, the outcome under
which it is counted, and the measurements that are sent out. So none of these can
disagree with another.
-/
import Admission.Counter
import Admission.CounterKey
import Admission.Number.Binary64

set_option autoImplicit false

namespace Admission

/-! ## Observations -/

/-- **What the store reported about one rule.** -/
structure Observation where
  count : Nat
  exceeded : Bool
  /-- milliseconds until the counter frees capacity -/
  resetAfter : Nat
  key : CounterKey
  deriving DecidableEq

namespace Observation

/-- The end of a bucket of the clock, in milliseconds. -/
def bucketEnd (rule : Rule) (bucket : Option Nat) : Nat :=
  Word.mul (Word.add (bucket.getD 0) 1) (Word.mul rule.windowSeconds 1000)

/-- What an increment of a fixed window says about its rule. Windows are buckets
of the clock, so capacity returns when the bucket ends. -/
def ofFixed (rule : Rule) (key : CounterKey) (now : Nat) (count : FixedCount) : Observation where
  count := count.count
  exceeded := decide (rule.limit < count.count)
  resetAfter := bucketEnd rule key.bucket - now
  key := key

/-- What an attempt on a sliding window says about its rule. -/
def ofSliding (key : CounterKey) (count : SlidingCount) : Observation where
  count := count.count
  exceeded := count.exceeded
  resetAfter := count.resetAfter
  key := key

/-- **How much of a rule's limit is used up.** -/
def utilization (o : Observation) (rule : Rule) : Magnitude :=
  (Magnitude.ofNat o.count).divide (Magnitude.ofNat rule.limit)

end Observation

/-- A rule with what was observed of it. -/
structure Measured where
  rule : Rule
  observation : Observation
  deriving DecidableEq

/-- How much of the limit is used up. -/
def Measured.utilization (m : Measured) : Magnitude := m.observation.utilization m.rule

/-- The busier of two; the earlier one if neither is. -/
def Measured.busier (earlier later : Measured) : Measured :=
  if earlier.utilization.less later.utilization then later else earlier

/-! ## Decisions -/

/-- **The decision about one request.** -/
structure Decision where
  allowed : Bool
  /-- the rule that denied, or the busiest one of those that allowed -/
  appliedRule : Option String
  currentCount : Nat
  limit : Nat
  resetAfterSeconds : Nat
  /-- seconds since the epoch -/
  resetAt : Nat
  retryAfterSeconds : Option Nat
  message : Option String
  /-- further particulars, each name once -/
  details : List (String × String)
  deriving DecidableEq

namespace Decision

/-- An allowance that no rule had a part in. -/
def pass (details : List (String × String)) (nowSeconds : Nat) : Decision where
  allowed := true
  appliedRule := none
  currentCount := 0
  limit := 0
  resetAfterSeconds := 0
  resetAt := nowSeconds
  retryAfterSeconds := none
  message := none
  details := details

/-- What is left of the limit. -/
def remaining (d : Decision) : Nat := d.limit - d.currentCount

/-- Whether a rule had a part in the decision. -/
def hasRule (d : Decision) : Bool := d.appliedRule.isSome

/-- An allowance with the numbers of a rule. -/
def allowance (space : String) (m : Measured) (reason : String) (nowSeconds : Nat) : Decision where
  allowed := true
  appliedRule := some m.rule.id
  currentCount := m.observation.count
  limit := m.rule.limit
  resetAfterSeconds := ceilSeconds m.observation.resetAfter
  resetAt := nowSeconds + ceilSeconds m.observation.resetAfter
  retryAfterSeconds := none
  message := none
  details :=
    [("algorithm", m.rule.algorithm.name), ("key", m.observation.key.render space),
      ("window_seconds", Nat.repr m.rule.windowSeconds), ("reason", reason)]

/-- What a client is told when a rule has no message of its own. -/
def defaultMessage (rule : Rule) : String :=
  "Limit of " ++ Nat.repr rule.limit ++ " requests per " ++ Nat.repr rule.windowSeconds ++
    " seconds exceeded"

/-- **What a client is told that a rule turns away.** A message that cannot be
filled in from the request is given as it stands. -/
def denialMessage (rule : Rule) (request : Request) : String :=
  match rule.message with
  | none => defaultMessage rule
  | some message =>
    match (Template.parse message).bind (·.resolve request.source) with
    | .ok text => text
    | .error _ => message

/-- A denial by a rule. A client is never told to come back at once. -/
def denial (space : String) (m : Measured) (request : Request) (nowSeconds : Nat) : Decision :=
  { allowance space m "limit_exceeded" nowSeconds with
    allowed := false
    retryAfterSeconds := some (max (ceilSeconds m.observation.resetAfter) 1)
    message := some (denialMessage m.rule request) }

end Decision

/-! ## Endings -/

/-- **How an evaluation ended.** -/
inductive Ending
  /-- limiting is switched off -/
  | disabled
  | whitelisted
  /-- no rule governs the request -/
  | noRules
  /-- no rule that governs the request had a value to count along -/
  | nothingCounted
  /-- every rule passed; the busiest one is shown -/
  | passed (busiest : Measured)
  | denied (by_ : Measured)
  /-- the store failed at a rule -/
  | failed (at_ : Rule) (error : Error)

/-- **The outcome under which a check is counted.** -/
inductive Outcome
  | disabled
  | whitelisted
  | allowed
  | denied
  | failedOpen
  | error
  deriving DecidableEq

/-- The label of an outcome. -/
def Outcome.label : Outcome → String
  | disabled => "disabled"
  | whitelisted => "whitelisted"
  | allowed => "allowed"
  | denied => "denied"
  | failedOpen => "failed_open"
  | error => "error"

/-- The error that a failure of the store is reported as: what is no store error
becomes one. -/
def Error.asStoreFailure (e : Error) : Error :=
  if e.isStoreFailure then e else .storeUnavailable e.message

namespace Ending

/-- **What the client gets.** A failure of the store lets the request through if
the limiter is told to fail open, and is an error if not. -/
def result (failOpen : Bool) (space : String) (request : Request) (nowSeconds : Nat) :
    Ending → Except Error Decision
  | disabled => .ok (.pass [("reason", "disabled")] nowSeconds)
  | whitelisted => .ok (.pass [("reason", "whitelisted")] nowSeconds)
  | noRules => .ok (.pass [("reason", "no_rules")] nowSeconds)
  | nothingCounted => .ok (.pass [("reason", "no_applicable_rules")] nowSeconds)
  | passed busiest => .ok (.allowance space busiest "most_utilized" nowSeconds)
  | denied m => .ok (.denial space m request nowSeconds)
  | failed rule error =>
    if failOpen then
      .ok (.pass [("reason", "store_failure"), ("fail_open", "true"), ("rule", rule.id)] nowSeconds)
    else .error error.asStoreFailure

/-- The outcome of an ending. -/
def outcome (failOpen : Bool) : Ending → Outcome
  | disabled => .disabled
  | whitelisted => .whitelisted
  | noRules | nothingCounted | passed _ => .allowed
  | denied _ => .denied
  | failed .. => if failOpen then .failedOpen else .error

/-- The rule that an ending is attributed to. -/
def appliedRule : Ending → Option Rule
  | passed m | denied m => some m.rule
  | _ => none

end Ending

end Admission
