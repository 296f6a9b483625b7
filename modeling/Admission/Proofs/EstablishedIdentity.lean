/-
Who a request comes from, once that is established.

What was established before a request came here goes ahead of anything the request says about
itself (`Boundary.caller?`, `Boundary.tenant?`). So two requests with the same identity, which may
differ in all their headers and in where they come from, are described with the same caller and
tenant, and are counted under the same keys (`established_identity_stands`). No header moves the
traffic of a caller or of a tenant to another counter.
-/
import Admission.Proofs.Conversation
import Admission.Proofs.Gate

set_option autoImplicit false

namespace Admission

/-! ## Counting along a dimension -/

/-- **A request is counted for one value only** along a dimension: whatever a check of it asks any
store to count along the dimension, it asks under a key of this value. For a request without a
value nothing is counted along the dimension. -/
def Dimension.CountsOnly (dimension : Dimension) (value : Option String) (q : Request) : Prop :=
  ∀ (l : Limiter) (rules : List Rule) (defaults : DefaultLimits),
    RuleSet.build rules defaults = .ok l.rules →
    ∀ now xs answer, (l.check q now).Goes xs answer →
    ∀ x ∈ xs, x.call.isIncrement = true →
    ∀ key : CounterKey, x.call.key = key.render l.settings.keySpace →
      key.dimension = dimension → value = some key.value

/-- **Two requests are counted alike** along a dimension, for the same value: every rule that
counts along it has the same key for both, or none for both, in every key space and at all times,
and neither of them is ever counted along it under a key of another value. -/
structure Dimension.CountsAlike (dimension : Dimension) (value : Option String)
    (p q : Request) : Prop where
  keys : ∀ rule : Rule, rule.dimension = dimension → ∀ (space : String) (seconds : Nat),
    (CounterKey.forRequest rule p seconds).map (·.render space) =
      (CounterKey.forRequest rule q seconds).map (·.render space)
  left : dimension.CountsOnly value p
  right : dimension.CountsOnly value q

/-- **A key under which a check counts** names the dimension of a rule that governs the request,
and the value that the request has along it. -/
theorem Limiter.exists_valueOf_of_counts {l : Limiter} (hs : l.rules.Sound) {q : Request}
    {now : Nat} {xs : List Exchange} {answer : Except Error Decision × List Metric}
    (h : (l.check q now).Goes xs answer) {x : Exchange} (hx : x ∈ xs)
    (hcounts : x.call.isIncrement = true) {key : CounterKey}
    (hkey : x.call.key = key.render l.settings.keySpace) :
    ∃ rule ∈ l.rules.resolve q, rule.dimension = key.dimension ∧
      rule.valueOf q = some key.value := by
  obtain ⟨e, hchecks, -⟩ := checks_of_goes h
  obtain ⟨rule, hrule, key', heard, hask, hheard, -⟩ := hchecks.heard hs hx hcounts
  -- the text of a key tells the key
  obtain rfl : key' = key := CounterKey.render_injective (hheard.call_key.symm.trans hkey)
  obtain ⟨value, hvalue, rfl⟩ := eq_forValue_of_forRequest hask
  exact ⟨rule, hrule, rfl, hvalue⟩

namespace Dimension

variable {dimension : Dimension} {value : Option String} {p q : Request}

theorem countsOnly_of_valueOf
    (h : ∀ rule : Rule, rule.dimension = dimension → rule.valueOf q = value) :
    dimension.CountsOnly value q := by
  intro l rules defaults hbuild now xs answer hgoes x hx hcounts key hkey hdimension
  obtain ⟨rule, -, hrule, hvalue⟩ :=
    Limiter.exists_valueOf_of_counts (RuleSet.sound_of_build hbuild) hgoes hx hcounts hkey
  rw [← h rule (hrule.trans hdimension), hvalue]

/-- It is enough that every rule has the value for both. -/
theorem countsAlike_of_valueOf
    (hp : ∀ rule : Rule, rule.dimension = dimension → rule.valueOf p = value)
    (hq : ∀ rule : Rule, rule.dimension = dimension → rule.valueOf q = value) :
    dimension.CountsAlike value p q := by
  refine ⟨?_, countsOnly_of_valueOf hp, countsOnly_of_valueOf hq⟩
  intro rule hrule space seconds
  rw [CounterKey.forRequest, CounterKey.forRequest, hp rule hrule, hq rule hrule]

theorem countsAlike_caller (hp : p.caller = value) (hq : q.caller = value) :
    caller.CountsAlike value p q := by
  refine countsAlike_of_valueOf ?_ ?_
  · intro rule hrule
    rw [Rule.valueOf, hrule, ← hp]
  · intro rule hrule
    rw [Rule.valueOf, hrule, ← hq]

theorem countsAlike_tenant (hp : p.tenant = value) (hq : q.tenant = value) :
    tenant.CountsAlike value p q := by
  refine countsAlike_of_valueOf ?_ ?_
  · intro rule hrule
    rw [Rule.valueOf, hrule, ← hp]
  · intro rule hrule
    rw [Rule.valueOf, hrule, ← hq]

end Dimension

/-! ## Descriptions -/

/-- Header fields added to a description change its headers and nothing else. -/
theorem Request.exists_withHeaders (q : Request) (fields : List (String × String)) :
    ∃ headers, q.withHeaders fields = { q with headers := headers } := by
  induction fields generalizing q with
  | nil => exact ⟨q.headers, rfl⟩
  | cons field rest ih => exact ih (q.withHeader field.1 field.2)

namespace Http

namespace Boundary

variable {b : Boundary} {r : Request}

/-- **What a request is described as,** its headers apart. -/
theorem exists_describe (b : Boundary) (r : Request) : ∃ headers, b.describe r =
    ⟨Text.upper r.method, r.path, clientAddress r, b.caller? r, b.tenant? r, headers⟩ :=
  Request.exists_withHeaders _ _

/-- A caller that is established is the caller, whatever the headers say. -/
theorem caller_describe_of_established {caller : String}
    (h : r.identity.bind Identity.caller = some caller) : (b.describe r).caller = some caller := by
  obtain ⟨headers, hdescribe⟩ := b.exists_describe r
  rw [hdescribe, caller?, h]
  rfl

/-- **The tenant is the one that is established,** if there is one or no header is read for it. -/
theorem tenant_describe_of_established
    (h : (r.identity.bind Identity.tenant).isSome = true ∨ b.tenantHeader = none) :
    (b.describe r).tenant = r.identity.bind Identity.tenant := by
  obtain ⟨headers, hdescribe⟩ := b.exists_describe r
  rw [hdescribe, tenant?]
  cases hidentity : r.identity.bind Identity.tenant with
  | some tenant => rfl
  | none =>
    rw [hidentity] at h
    obtain h | h := h
    · cases h
    · rw [h]
      rfl

/-- Without a configured header for the tenant none is read. -/
theorem tenantHeader_of_ofConfig {config : RateLimitingConfig} (h : ofConfig config = .ok b)
    (hnone : config.tenantHeader = none) : b.tenantHeader = none := by
  obtain ⟨apiKeyHeader, -, h⟩ := exists_of_bind_eq_ok h
  obtain ⟨tenantHeader, htenant, h⟩ := exists_of_bind_eq_ok h
  rw [hnone] at htenant
  cases htenant
  obtain ⟨limit, -, h⟩ := exists_of_bind_eq_ok h
  obtain ⟨remaining, -, h⟩ := exists_of_bind_eq_ok h
  obtain ⟨reset, -, h⟩ := exists_of_bind_eq_ok h
  obtain ⟨retryAfter, -, h⟩ := exists_of_bind_eq_ok h
  cases h
  rfl

end Boundary

/-- **An established identity stands, whatever the headers say.** Take settings that could be made
and two requests with the same identity; they may differ in all their headers, which may be
repeated, unreadable, or named like the headers that are read, and in all else.

If the identity has a caller, both are described with this caller. If it has a tenant, or if no
header is configured for the tenant, both are described with the tenant of the identity, and with
none if it has none. Then every rule that counts along the caller, or the tenant, has the same key
for both or none for both; and whatever a check of either of them, by any limiter and over any
store, counts along it, it counts under a key of the established one. -/
theorem established_identity_stands {config : RateLimitingConfig} {b : Boundary}
    (hb : Boundary.ofConfig config = .ok b) {r r' : Request} (hsame : r'.identity = r.identity) :
    (∀ caller, r.identity.bind Identity.caller = some caller →
      (b.describe r).caller = some caller ∧ (b.describe r').caller = some caller ∧
      Dimension.caller.CountsAlike (some caller) (b.describe r) (b.describe r')) ∧
    ((r.identity.bind Identity.tenant).isSome = true ∨ config.tenantHeader = none →
      let tenant := r.identity.bind Identity.tenant
      (b.describe r).tenant = tenant ∧ (b.describe r').tenant = tenant ∧
      Dimension.tenant.CountsAlike tenant (b.describe r) (b.describe r')) := by
  constructor
  · intro caller hcaller
    have hr : (b.describe r).caller = some caller :=
      Boundary.caller_describe_of_established hcaller
    have hr' : (b.describe r').caller = some caller :=
      Boundary.caller_describe_of_established (hsame ▸ hcaller)
    exact ⟨hr, hr', Dimension.countsAlike_caller hr hr'⟩
  · intro htenant tenant
    have hestablished : (r.identity.bind Identity.tenant).isSome = true ∨ b.tenantHeader = none :=
      htenant.imp_right (Boundary.tenantHeader_of_ofConfig hb)
    have hr : (b.describe r).tenant = tenant :=
      Boundary.tenant_describe_of_established hestablished
    have hr' : (b.describe r').tenant = tenant := by
      rw [Boundary.tenant_describe_of_established (hsame.symm ▸ hestablished), hsame]
    exact ⟨hr, hr', Dimension.countsAlike_tenant hr hr'⟩

/-! ## A request that claims to be another -/

namespace IdentitySample

/-- A header is read for the tenant too. -/
def config : RateLimitingConfig :=
  { RateLimitingConfig.standard with tenantHeader := some "X-Tenant-Id" }

def boundary : Boundary where
  skipPaths := ["/health", "/metrics"]
  apiKeyHeader := ⟨"x-api-key"⟩
  tenantHeader := some ⟨"x-tenant-id"⟩
  informational := true
  limit := ⟨"x-ratelimit-limit"⟩
  remaining := ⟨"x-ratelimit-remaining"⟩
  reset := ⟨"x-ratelimit-reset"⟩
  retryAfter := ⟨"retry-after"⟩

def identity : Identity := ⟨some "user-1", some "acme"⟩

def plain : Request := ⟨"POST", "/login", .empty, some identity, none⟩

/-- It has a key of its own, two in fact, and names another tenant. -/
def spoofed : Request :=
  { plain with
    headers := .ofList [("X-API-Key", "key-123"), ("X-API-Key", "key-456"),
      ("X-Tenant-Id", "globex"), ("X-Forwarded-For", "203.0.113.9")] }

/-- One request a minute from each caller. -/
def rule : Rule := Rule.basic "login" .caller 1 60

def limiter : Limiter := ⟨⟨true, false, 50, "turnstile"⟩, ⟨[rule]⟩, ⟨[], [], [], false⟩⟩

end IdentitySample

open IdentitySample in
/-- It is counted as what it is. -/
theorem established_identity_stands_of_spoofed :
    Boundary.ofConfig config = .ok boundary ∧ spoofed.identity = plain.identity ∧
    (boundary.describe spoofed).caller = some "user-1" ∧
    (boundary.describe spoofed).tenant = some "acme" ∧
    (CounterKey.forRequest rule (boundary.describe spoofed) 90).map (·.render "turnstile") =
      some "turnstile:login:caller:user-1:1" ∧
    ∀ x ∈ (limiter.check (boundary.describe spoofed) 90000).exchanges (Store.reply 90000) .empty,
      x.call.isIncrement = true → ∀ key : CounterKey, x.call.key = key.render "turnstile" →
        key.dimension = .caller → some "user-1" = some key.value := by
  have hb : Boundary.ofConfig config = .ok boundary := by decide
  have hsame : spoofed.identity = plain.identity := rfl
  obtain ⟨hcaller, htenant⟩ := established_identity_stands hb hsame
  obtain ⟨-, hspoofed, halike⟩ := hcaller "user-1" rfl
  obtain ⟨-, hacme, -⟩ := htenant (.inl rfl)
  have hkey : (CounterKey.forRequest rule (boundary.describe plain) 90).map (·.render "turnstile") =
      some "turnstile:login:caller:user-1:1" := by decide +kernel
  have hbuild : RuleSet.build [rule] .empty = .ok limiter.rules := by rfl
  refine ⟨hb, hsame, hspoofed, hacme, ?_, ?_⟩
  · rw [← halike.keys rule rfl, hkey]
  · exact halike.right limiter [rule] .empty hbuild 90000 _ _
      (Interaction.goes_exchanges (Store.reply 90000) _ _)

end Http

end Admission
