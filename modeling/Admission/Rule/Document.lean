/-
Rules and default limits as they are written down: how each is read, in whatever
notation (`Reading`), and how each is written as JSON. A written rule always shows
all of its fields; a rule that is read may leave out those that have a default.
-/
import Admission.Json
import Admission.Reading
import Admission.RuleSet

set_option autoImplicit false

namespace Admission

/-! ## Reading -/

variable {m : Type → Type} [Monad m] [MonadExcept Unit m] {ν : Type}

/-- A pattern is a text, and a bad one is refused where it is written. -/
def Pattern.read (r : Reading m ν) (v : ν) : m Pattern :=
  do Reading.accept (Pattern.parse (← r.text v)).toOption

/-- The fields of a rule in their order. -/
def Rule.fieldNames : List String :=
  ["id", "endpoints", "methods", "dimension", "limit", "window_seconds", "algorithm", "priority",
    "enabled", "limit_per_caller", "limit_per_address", "message"]

/-- **Reading a rule.** -/
def Rule.read (r : Reading m ν) (v : ν) : m Rule := do
  let fields ← r.record Rule.fieldNames v
  let id ← Reading.required fields "id" r.text
  let endpoints ← Reading.orElse fields "endpoints" [] (r.list (Pattern.read r))
  let methods ← Reading.orElse fields "methods" [] (r.list r.text)
  let dimension ← Reading.required fields "dimension" (r.named Dimension.names)
  let limit ← Reading.required fields "limit" r.count
  let windowSeconds ← Reading.required fields "window_seconds" r.count
  let algorithm ← Reading.orElse fields "algorithm" .fixedWindow (r.named Algorithm.names)
  let priority ← Reading.orElse fields "priority" 0 r.int32
  let enabled ← Reading.orElse fields "enabled" true r.flag
  let limitPerCaller ← Reading.orElse fields "limit_per_caller" none (r.optional r.count)
  let limitPerAddress ← Reading.orElse fields "limit_per_address" none (r.optional r.count)
  let message ← Reading.orElse fields "message" none (r.optional r.text)
  return { id, endpoints, methods, dimension, limit, windowSeconds, algorithm, priority, enabled,
           limitPerCaller, limitPerAddress, message }

/-- Reading a default limit. -/
def DefaultLimit.read (r : Reading m ν) (v : ν) : m DefaultLimit := do
  let fields ← r.record ["limit", "window_seconds", "algorithm"] v
  let limit ← Reading.required fields "limit" r.count
  let windowSeconds ← Reading.required fields "window_seconds" r.count
  let algorithm ← Reading.orElse fields "algorithm" .fixedWindow (r.named Algorithm.names)
  return { limit, windowSeconds, algorithm }

/-- Reading the default limits. -/
def DefaultLimits.read (r : Reading m ν) (v : ν) : m DefaultLimits := do
  let fields ← r.record ["per_address", "per_caller", "per_tenant"] v
  let perAddress ← Reading.orElse fields "per_address" none (r.optional (DefaultLimit.read r))
  let perCaller ← Reading.orElse fields "per_caller" none (r.optional (DefaultLimit.read r))
  let perTenant ← Reading.orElse fields "per_tenant" none (r.optional (DefaultLimit.read r))
  return { perAddress, perCaller, perTenant }

/-- **A document of rules:** a file that brings rules and default limits. -/
structure RulesDocument where
  defaults : DefaultLimits
  rules : List Rule
  deriving DecidableEq

/-- Reading a document of rules. -/
def RulesDocument.read (r : Reading m ν) (v : ν) : m RulesDocument := do
  let fields ← r.record ["defaults", "rules"] v
  let defaults ← Reading.orElse fields "defaults" DefaultLimits.empty (DefaultLimits.read r)
  let rules ← Reading.orElse fields "rules" [] (r.list (Rule.read r))
  return { defaults, rules }

/-! ## Writing -/

/-- **A rule written as JSON,** with all of its fields. -/
def Rule.json (r : Rule) : Json :=
  .object
    [("id", .string r.id),
      ("endpoints", .list (fun p : Pattern => .string p.text) r.endpoints),
      ("methods", .list .string r.methods),
      ("dimension", .string r.dimension.name),
      ("limit", .nat r.limit),
      ("window_seconds", .nat r.windowSeconds),
      ("algorithm", .string r.algorithm.name),
      ("priority", .int r.priority),
      ("enabled", .bool r.enabled),
      ("limit_per_caller", .optional .nat r.limitPerCaller),
      ("limit_per_address", .optional .nat r.limitPerAddress),
      ("message", .optional .string r.message)]

/-- A default limit written as JSON. -/
def DefaultLimit.json (d : DefaultLimit) : Json :=
  .object
    [("limit", .nat d.limit),
      ("window_seconds", .nat d.windowSeconds),
      ("algorithm", .string d.algorithm.name)]

/-- The default limits written as JSON. -/
def DefaultLimits.json (d : DefaultLimits) : Json :=
  .object
    [("per_address", .optional DefaultLimit.json d.perAddress),
      ("per_caller", .optional DefaultLimit.json d.perCaller),
      ("per_tenant", .optional DefaultLimit.json d.perTenant)]

end Admission
