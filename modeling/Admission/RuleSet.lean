/-
The rules in force. A rule set is made from a list of rules and from default
limits; every rule is examined, expanded, and its id must be its own. Resolving a
request gives the rules that govern it, in the order in which they are asked.
-/
import Admission.Rule

set_option autoImplicit false

namespace Admission

/-! ## Default limits -/

/-- A limit along one dimension for every request. -/
structure DefaultLimit where
  limit : Nat
  windowSeconds : Nat
  algorithm : Algorithm
  deriving DecidableEq

/-- **The default limits,** one per dimension of identity. -/
structure DefaultLimits where
  perAddress : Option DefaultLimit
  perCaller : Option DefaultLimit
  perTenant : Option DefaultLimit
  deriving DecidableEq

namespace DefaultLimits

/-- No default limits. -/
def empty : DefaultLimits := ⟨none, none, none⟩

/-- The largest priority there is. -/
def lastPriority : Int := 2147483647

/-- The rule of one default limit. -/
def rule (dimension : Dimension) (priority : Int) (d : DefaultLimit) : Rule :=
  { Rule.basic ("default:" ++ dimension.tag) dimension d.limit d.windowSeconds with
    algorithm := d.algorithm, priority := priority }

/-- **The default limits as rules:** tenant, caller, address, on the last three
priorities. -/
def rules (d : DefaultLimits) : List Rule :=
  (d.perTenant.map (rule .tenant (lastPriority - 2))).toList ++
    (d.perCaller.map (rule .caller (lastPriority - 1))).toList ++
    (d.perAddress.map (rule .address lastPriority)).toList

/-- Default limits laid over others: what `upper` has wins. -/
def merge (base upper : DefaultLimits) : DefaultLimits where
  perAddress := upper.perAddress <|> base.perAddress
  perCaller := upper.perCaller <|> base.perCaller
  perTenant := upper.perTenant <|> base.perTenant

end DefaultLimits

/-! ## Rule sets -/

/-- **The rules in force,** as they are asked: examined and expanded. -/
structure RuleSet where
  rules : List Rule
  deriving DecidableEq

namespace RuleSet

/-- No rules. -/
def empty : RuleSet := ⟨[]⟩

/-- The first id that is the same as an earlier one. -/
def firstRepeated : (seen : List String) → List Rule → Option String
  | _, [] => none
  | seen, r :: rest => if r.id ∈ seen then some r.id else firstRepeated (r.id :: seen) rest

/-- **Making a rule set.** The first rule with a fault is reported; ids are looked
at once all rules are in order. -/
def build (rules : List Rule) (defaults : DefaultLimits) : Except Error RuleSet :=
  let all := rules ++ defaults.rules
  match all.findSome? Rule.error? with
  | some error => .error error
  | none =>
    let expanded := all.flatMap Rule.expand
    match firstRepeated [] expanded with
    | some id => .error (.rule id Rule.Fault.duplicateId.reason)
    | none => .ok ⟨expanded⟩

/-- The rule of an id. -/
def get? (s : RuleSet) (id : String) : Option Rule := s.rules.find? (·.id == id)

/-! ## Resolution -/

/-- How closely a rule describes a request that it governs; `none` if the rule is
switched off or does not cover the request. -/
def relevance? (request : Request) (r : Rule) : Option Specificity :=
  if r.enabled && r.coversMethod request.method && r.applies request then
    r.matchEndpoint request.endpoint
  else none

/-- The order in which rules are asked: lower priority number, then closer
description, then id. -/
def notAfter (a b : Specificity × Rule) : Bool :=
  if a.2.priority ≠ b.2.priority then decide (a.2.priority < b.2.priority)
  else if a.1 ≠ b.1 then b.1.below a.1
  else decide (a.2.id ≤ b.2.id)

/-- **The rules that govern a request,** first to last. -/
def resolve (s : RuleSet) (request : Request) : List Rule :=
  let relevant := s.rules.filterMap fun r => (relevance? request r).map (·, r)
  (relevant.mergeSort notAfter).map (·.2)

end RuleSet

end Admission
