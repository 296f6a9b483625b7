/-
A rule: so many requests per window, counted along one dimension, for the
endpoints and methods it covers.

A rule may carry two further thresholds, one per caller and one per address, on
the same scope. They are shorthand: `Rule.expand` turns each into a rule of its
own with a derived id, and a rule that has been expanded carries none.
-/
import Admission.Dimension
import Admission.Endpoint
import Admission.Error
import Admission.Request
import Admission.Template
import Admission.Text.Ascii
import Admission.Text.Blank
import Admission.Word

set_option autoImplicit false

namespace Admission

/-- **A single limit.** -/
structure Rule where
  /-- part of every counter key of the rule -/
  id : String
  /-- the endpoints covered; none means all of them -/
  endpoints : List Pattern
  /-- the methods covered; none, or a star among them, means all of them -/
  methods : List String
  dimension : Dimension
  /-- requests admitted per window -/
  limit : Nat
  windowSeconds : Nat
  algorithm : Algorithm
  /-- rules with a lower number are evaluated first -/
  priority : Int
  enabled : Bool
  limitPerCaller : Option Nat
  limitPerAddress : Option Nat
  /-- a template for what a client is told that is turned away -/
  message : Option String
  deriving DecidableEq

namespace Rule

/-- An enabled fixed-window rule for every endpoint and method. -/
def basic (id : String) (dimension : Dimension) (limit windowSeconds : Nat) : Rule where
  id := id
  endpoints := []
  methods := []
  dimension := dimension
  limit := limit
  windowSeconds := windowSeconds
  algorithm := .fixedWindow
  priority := 0
  enabled := true
  limitPerCaller := none
  limitPerAddress := none
  message := none

/-- The rule with one more endpoint, which must be a pattern. -/
def withEndpoint (r : Rule) (given : String) : Except Error Rule :=
  match Pattern.parse given with
  | .ok pattern => .ok { r with endpoints := r.endpoints ++ [pattern] }
  | .error fault => .error (.rule r.id fault.message)

/-- The rule with one more method, kept in capitals. -/
def withMethod (r : Rule) (method : String) : Rule :=
  { r with methods := r.methods ++ [Text.upper method] }

/-- The window in milliseconds. -/
def window (r : Rule) : Nat := secondsToMillis r.windowSeconds

/-! ## Scope -/

/-- Whether the rule covers a method. -/
def coversMethod (r : Rule) (method : String) : Bool :=
  r.methods.isEmpty || r.methods.any fun m => m == "*" || Text.sameIgnoringCase m method

/-- The closest description among the rule's patterns of a path; `none` if no
pattern covers it. -/
def matchEndpoint (r : Rule) (path : String) : Option Specificity :=
  if r.endpoints.isEmpty then some Specificity.least
  else match r.endpoints.filterMap (·.matchPath path) with
    | [] => none
    | first :: rest => some (rest.foldl Specificity.max first)

/-- The value shared by every request when the rule counts along its endpoint. -/
def endpointScope (r : Rule) : String :=
  if r.endpoints.isEmpty then "*" else Text.join ',' (r.endpoints.map Pattern.text)

/-- Whether a request carries a value along the rule's dimension. -/
def applies (r : Rule) (request : Request) : Bool :=
  match r.dimension with
  | .caller => request.caller.isSome
  | .tenant => request.tenant.isSome
  | .address | .endpoint => true

/-- **The value a request has along the rule's dimension.** -/
def valueOf (r : Rule) (request : Request) : Option String :=
  match r.dimension with
  | .address => some request.address
  | .caller => request.caller
  | .tenant => request.tenant
  | .endpoint => some r.endpointScope

/-- The resolver's test and the value agree: a rule applies exactly when there is
a value to count along. -/
theorem applies_eq_isSome_valueOf (r : Rule) (request : Request) :
    r.applies request = (r.valueOf request).isSome := by
  unfold applies valueOf
  split <;> simp_all

/-! ## Validation -/

/-- Why a rule cannot be used. -/
inductive Fault
  | blankId
  | zeroLimit
  | zeroWindow
  | zeroLimitPerCaller
  | zeroLimitPerAddress
  | redundantLimitPerCaller
  | redundantLimitPerAddress
  | badMessage (fault : Template.Fault)
  | duplicateId
  | unknownId
  deriving DecidableEq

/-- The wording of a fault. -/
def Fault.reason : Fault → String
  | blankId => "rule id must not be empty"
  | zeroLimit => "limit must be positive"
  | zeroWindow => "window_seconds must be positive"
  | zeroLimitPerCaller => "limit_per_caller must be positive"
  | zeroLimitPerAddress => "limit_per_address must be positive"
  | redundantLimitPerCaller => "limit_per_caller is redundant on a caller-scoped rule"
  | redundantLimitPerAddress => "limit_per_address is redundant on an address-scoped rule"
  | badMessage fault => (Error.placeholder fault.message).message
  | duplicateId => "duplicate rule id"
  | unknownId => "no such rule"

/-- The fault of a message template, if it has one. -/
def messageFault (r : Rule) : Option Template.Fault :=
  match r.message with
  | none => none
  | some message =>
    match Template.parse message with
    | .ok _ => none
    | .error fault => some fault

/-- **The first fault of a rule,** in the order in which a rule is examined. -/
def fault? (r : Rule) : Option Fault :=
  if Text.isAllBlank r.id then some .blankId
  else if r.limit = 0 then some .zeroLimit
  else if r.windowSeconds = 0 then some .zeroWindow
  else if r.limitPerCaller = some 0 then some .zeroLimitPerCaller
  else if r.limitPerAddress = some 0 then some .zeroLimitPerAddress
  else if r.limitPerCaller.isSome ∧ r.dimension = .caller then some .redundantLimitPerCaller
  else if r.limitPerAddress.isSome ∧ r.dimension = .address then some .redundantLimitPerAddress
  else r.messageFault.map .badMessage

/-- The name under which a fault is reported: a rule without an id has none of
its own. -/
def reportedId (r : Rule) : String := if Text.isAllBlank r.id then "<unnamed>" else r.id

/-- The error for a rule that cannot be used. -/
def error? (r : Rule) : Option Error :=
  r.fault?.map fun fault => .rule r.reportedId fault.reason

/-! ## Expansion -/

/-- The rule for one of the further thresholds: same scope, window, algorithm and
priority, its own dimension, limit and id. -/
def derived (r : Rule) (dimension : Dimension) (limit : Nat) : Rule :=
  { r with id := r.id ++ ":" ++ dimension.tag, dimension := dimension, limit := limit }

/-- **A rule and the rules derived from it,** none of which has a further
threshold left; methods are in capitals. -/
def expand (r : Rule) : List Rule :=
  let own : Rule :=
    { r with methods := r.methods.map Text.upper, limitPerCaller := none, limitPerAddress := none }
  [own] ++ (r.limitPerCaller.map (own.derived .caller)).toList ++
    (r.limitPerAddress.map (own.derived .address)).toList

end Rule

end Admission
