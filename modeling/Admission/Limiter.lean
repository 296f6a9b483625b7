/-
The limiter: decides whether a request may proceed, tells how much of each limit
is used, and takes back counters and overrides.

A limiter holds no counters. Each of its operations is a conversation with a
counter store (`Interaction`) at a given time, so the same definition decides over
the store of this library, over one that fails, and over any other.

A check asks, in this order: is limiting switched on; is the request whitelisted;
which rules govern it; and then each of these rules in turn, until one is exceeded
or its call fails.
-/
import Admission.Interaction
import Admission.Metric
import Admission.RuleSet
import Admission.Whitelist

set_option autoImplicit false

namespace Admission

/-! ## Limiters -/

/-- **The switches of a limiter.** -/
structure LimiterSettings where
  /-- when off, every request is allowed and the store is left alone -/
  enabled : Bool
  /-- whether a request is allowed when the store fails -/
  failOpen : Bool
  /-- how many milliseconds a call may take -/
  storeTimeout : Nat
  /-- what every key starts with -/
  keySpace : String
  deriving DecidableEq

/-- **A limiter:** settings, the rules in force and the whitelist. -/
structure Limiter where
  settings : LimiterSettings
  rules : RuleSet
  whitelist : Whitelist
  deriving DecidableEq

namespace Limiter

/-- The limiter with other rules in force. -/
def reload (l : Limiter) (rules : RuleSet) : Limiter := { l with rules := rules }

/-! ## Checking -/

/-- **Counting a request for one rule.** -/
def observe (l : Limiter) (rule : Rule) (key : CounterKey) (now : Nat) :
    Interaction (Except Error Observation) :=
  match rule.algorithm with
  | .fixedWindow =>
    .ask (.incrementFixed (key.render l.settings.keySpace) rule.window) fun reply =>
      .done ((reply.within l.settings.storeTimeout).map (Observation.ofFixed rule key now))
  | .slidingWindow =>
    .ask (.incrementSliding (key.render l.settings.keySpace) rule.window rule.limit now)
      fun reply => .done ((reply.within l.settings.storeTimeout).map (Observation.ofSliding key))

/-- **Asking the rules in turn.** The first one that is exceeded denies, the first
call that fails ends the evaluation, and if all pass the busiest is shown. -/
def askRules (l : Limiter) (request : Request) (now : Nat) :
    (busiest : Option Measured) → List Rule → Interaction Ending
  | none, [] => .done .nothingCounted
  | some busiest, [] => .done (.passed busiest)
  | busiest, rule :: rest =>
    match CounterKey.forRequest rule request (now / 1000) with
    | none => l.askRules request now busiest rest
    | some key =>
      (l.observe rule key now).bind fun observed =>
        match observed with
        | .error error => .done (.failed rule error)
        | .ok observation =>
          let measured : Measured := ⟨rule, observation⟩
          if observation.exceeded then .done (.denied measured)
          else
            let busiest := busiest.elim measured (·.busier measured)
            l.askRules request now (some busiest) rest

/-- **Evaluating a request.** -/
def evaluate (l : Limiter) (request : Request) (now : Nat) : Interaction Ending :=
  if !l.settings.enabled then .done .disabled
  else
    (l.whitelist.lets l.settings.keySpace l.settings.storeTimeout request).bind fun past =>
      if past then .done .whitelisted
      else match l.rules.resolve request with
        | [] => .done .noRules
        | rule :: rest => l.askRules request now none (rule :: rest)

/-- **Checking a request:** the decision, and what is measured about it. -/
def check (l : Limiter) (request : Request) (now : Nat) :
    Interaction (Except Error Decision × List Metric) :=
  (l.evaluate request now).bind fun ending =>
    .done (ending.result l.settings.failOpen l.settings.keySpace request (now / 1000),
      ending.metrics l.settings.failOpen)

/-! ## Usage -/

/-- How much of one rule's limit is used. -/
structure RuleStatus where
  ruleId : String
  algorithm : Algorithm
  limit : Nat
  current : Nat
  remaining : Nat
  key : String
  deriving DecidableEq

/-- The usage that a reading of a rule's counter shows. -/
def statusOf (rule : Rule) (key : String) (snapshot : Snapshot) : RuleStatus where
  ruleId := rule.id
  algorithm := rule.algorithm
  limit := rule.limit
  current := snapshot.count
  remaining := rule.limit - snapshot.count
  key := key

/-- The usage of each of several rules; the first call that fails is the answer. -/
def readRules (l : Limiter) (request : Request) (nowSeconds : Nat) :
    List Rule → Interaction (Except Error (List RuleStatus))
  | [] => .done (.ok [])
  | rule :: rest =>
    match CounterKey.forRequest rule request nowSeconds with
    | none => l.readRules request nowSeconds rest
    | some key =>
      let text := key.render l.settings.keySpace
      .ask (.read text) fun reply =>
        match reply.within l.settings.storeTimeout with
        | .error error => .done (.error error)
        | .ok snapshot =>
          (l.readRules request nowSeconds rest).bind fun others =>
            .done (others.map (statusOf rule text snapshot :: ·))

/-- **How much of each limit is used** that governs a request. Nothing is counted. -/
def status (l : Limiter) (request : Request) (now : Nat) :
    Interaction (Except Error (List RuleStatus)) :=
  l.readRules request (now / 1000) (l.rules.resolve request)

/-! ## Taking counters back -/

/-- **Removing a rule's current counter for a request;** reports whether there was
one. A rule that is not in force is an error. -/
def reset (l : Limiter) (ruleId : String) (request : Request) (now : Nat) :
    Interaction (Except Error Bool) :=
  match l.rules.get? ruleId with
  | none => .done (.error (.rule ruleId Rule.Fault.unknownId.reason))
  | some rule =>
    match CounterKey.forRequest rule request (now / 1000) with
    | none => .done (.ok false)
    | some key =>
      .requestWithin l.settings.storeTimeout (.reset (key.render l.settings.keySpace))

/-- The value that a source names along a rule's dimension. Counters of an endpoint
are shared by every caller, so only a source that names a covered endpoint names
them. -/
def namedValue (rule : Rule) (source : Source) : Option String :=
  match rule.dimension with
  | .address => source.address
  | .caller => source.callerId
  | .tenant => source.tenantId
  | .endpoint =>
    match source.endpoint with
    | none => none
    | some endpoint => (rule.matchEndpoint endpoint).map fun _ => rule.endpointScope

/-- The current counters that a source names, of the selected rules; no selection
selects all. -/
def namedKeys (l : Limiter) (selected : List String) (source : Source) (nowSeconds : Nat) :
    List CounterKey :=
  l.rules.rules.filterMap fun rule =>
    if selected.isEmpty || rule.id ∈ selected then
      (namedValue rule source).map fun value => CounterKey.forValue rule value nowSeconds
    else none

/-- Removing keys one after another; reports how many held something. -/
def resetKeys (l : Limiter) : (removed : Nat) → List CounterKey → Interaction (Except Error Nat)
  | removed, [] => .done (.ok removed)
  | removed, key :: rest =>
    .ask (.reset (key.render l.settings.keySpace)) fun reply =>
      match reply.within l.settings.storeTimeout with
      | .error error => .done (.error error)
      | .ok held => l.resetKeys (if held then removed + 1 else removed) rest

/-- **Removing the current counters that a source names;** reports how many there
were. -/
def resetFor (l : Limiter) (selected : List String) (source : Source) (now : Nat) :
    Interaction (Except Error Nat) :=
  l.resetKeys 0 (l.namedKeys selected source (now / 1000))

/-! ## Overrides -/

/-- Letting a value past, for a time or for good. -/
def addOverride (l : Limiter) (dimension : Dimension) (value : String) (ttl : Option Nat) :
    Interaction (Except Error Unit) :=
  Whitelist.addOverride l.settings.keySpace l.settings.storeTimeout dimension value ttl

/-- Letting it past no longer; reports whether it was. -/
def removeOverride (l : Limiter) (dimension : Dimension) (value : String) :
    Interaction (Except Error Bool) :=
  Whitelist.removeOverride l.settings.keySpace l.settings.storeTimeout dimension value

end Limiter

end Admission
