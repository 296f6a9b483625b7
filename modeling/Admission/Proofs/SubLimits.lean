/-
Further thresholds of a rule.

A rule with a threshold per caller or per address stands for several rules, one for each
threshold, and all of them have its scope (`Rule.SharesScope`). So which of them govern a request
differs only by what the request has a value for, and since a derived id begins with the id that
it is derived from, the rule itself is asked first of them. Each counts under keys of its own, so
a check that they govern has to find room in every one of them (`sub_limits_share_scope`).
-/
import Admission.Proofs.Attempts
import Admission.Proofs.Failure
import Admission.Proofs.Fallback
import Admission.Proofs.Resetting

set_option autoImplicit false

namespace Admission

/-! ## Texts -/

namespace Text

theorem lower_upper (s : String) : lower (upper s) = lower s := by
  simp [lower, upper, Function.comp_def]

theorem upper_eq_star_iff {s : String} : upper s = "*" ↔ s = "*" := by
  constructor
  · intro h
    have hlist := congrArg String.toList h
    rw [upper, String.toList_ofList] at hlist
    obtain ⟨c, hs, hc⟩ := List.map_eq_singleton_iff.1 hlist
    -- the star is no letter, so it is the capital of itself alone
    have hletter : c.isAlpha = false := by
      rw [← Char.isUpper_toUpper_eq_isAlpha, hc]
      decide
    rw [Char.toUpper_eq_of_not_isLower (by simp_all [Char.isAlpha])] at hc
    rw [← String.toList_inj, hs, hc]
    rfl
  · rintro rfl
    decide

/-- A text comes before every longer one that begins with it. -/
theorem lt_append (s : String) {t : String} (ht : t ≠ "") : s < s ++ t := by
  have hcs : ∀ cs ds : List Char, ds ≠ [] → cs < cs ++ ds := by
    intro cs ds hds
    induction cs with
    | nil =>
      obtain ⟨d, rest, rfl⟩ := List.exists_cons_of_ne_nil hds
      exact List.nil_lt_cons d rest
    | cons c rest ih => exact List.cons_lt_cons_iff.2 (.inr ⟨rfl, ih⟩)
  rw [String.lt_iff, String.toList_append]
  exact hcs _ _ (by simpa using ht)

end Text

namespace Rule

variable {p e : Rule} {request : Request}

/-! ## What a rule stands for -/

/-- The rule itself as it is in force. -/
def own (p : Rule) : Rule :=
  { p with methods := p.methods.map Text.upper, limitPerCaller := none, limitPerAddress := none }

/-- The further threshold of a rule along a dimension. -/
def limitAlong (p : Rule) : Dimension → Option Nat
  | .caller => p.limitPerCaller
  | .address => p.limitPerAddress
  | .tenant | .endpoint => none

theorem mem_expand_iff : e ∈ p.expand ↔ e = p.own ∨ ∃ dimension limit,
    p.limitAlong dimension = some limit ∧ e = p.own.derived dimension limit := by
  have hexpand : p.expand = [p.own] ++ (p.limitPerCaller.map (p.own.derived .caller)).toList ++
      (p.limitPerAddress.map (p.own.derived .address)).toList := rfl
  simp only [hexpand, List.mem_append, List.mem_singleton, Option.mem_toList,
    Option.map_eq_some_iff]
  constructor
  · rintro ((rfl | ⟨limit, hlimit, rfl⟩) | ⟨limit, hlimit, rfl⟩)
    · exact .inl rfl
    · exact .inr ⟨.caller, limit, hlimit, rfl⟩
    · exact .inr ⟨.address, limit, hlimit, rfl⟩
  · rintro (rfl | ⟨dimension, limit, hlimit, rfl⟩)
    · exact .inl (.inl rfl)
    · cases dimension with
      | caller => exact .inl (.inr ⟨limit, hlimit, rfl⟩)
      | address => exact .inr ⟨limit, hlimit, rfl⟩
      | tenant | endpoint => cases hlimit

/-- **A rule with the scope of another one,** and with its way of counting. Methods are in
capitals. -/
structure SharesScope (e p : Rule) : Prop where
  endpoints : e.endpoints = p.endpoints
  methods : e.methods = p.methods.map Text.upper
  windowSeconds : e.windowSeconds = p.windowSeconds
  algorithm : e.algorithm = p.algorithm
  priority : e.priority = p.priority
  enabled : e.enabled = p.enabled
  message : e.message = p.message

theorem sharesScope_of_mem_expand (h : e ∈ p.expand) : e.SharesScope p := by
  rcases mem_expand_iff.1 h with rfl | ⟨dimension, limit, -, rfl⟩ <;>
    exact ⟨rfl, rfl, rfl, rfl, rfl, rfl, rfl⟩

/-- A derived id tells along which dimension there is a threshold, and which. -/
theorem eq_derived_of_id (h : e ∈ p.expand) {dimension : Dimension}
    (hid : e.id = p.id ++ ":" ++ dimension.tag) :
    p.limitAlong dimension = some e.limit ∧ e = p.own.derived dimension e.limit := by
  rcases mem_expand_iff.1 h with rfl | ⟨dimension', limit, hlimit, rfl⟩
  · -- the rule's own id is shorter
    rw [String.append_assoc] at hid
    exact absurd hid (Text.lt_append p.id (by cases dimension <;> decide)).ne
  · obtain rfl := Dimension.tag_injective (String.append_right_inj _ |>.1 hid)
    exact ⟨hlimit, rfl⟩

/-- There is a derived id exactly if the threshold is there. -/
theorem exists_derived_iff {dimension : Dimension} :
    (∃ e ∈ p.expand, e.id = p.id ++ ":" ++ dimension.tag) ↔
      (p.limitAlong dimension).isSome = true := by
  constructor
  · rintro ⟨e, he, hid⟩
    rw [(eq_derived_of_id he hid).1]
    rfl
  · intro h
    obtain ⟨limit, hlimit⟩ := Option.isSome_iff_exists.1 h
    exact ⟨_, mem_expand_iff.2 (.inr ⟨dimension, limit, hlimit, rfl⟩), rfl⟩

/-! ## Which of them govern a request -/

/-- **A request is in the scope of a rule:** the rule is switched on, and its methods and
patterns cover the request, whatever the request is counted along. -/
structure InScope (p : Rule) (request : Request) : Prop where
  enabled : p.enabled = true
  method : p.methods = [] ∨
    ∃ m ∈ p.methods, m = "*" ∨ Text.sameIgnoringCase m request.method = true
  endpoint : p.endpoints = [] ∨
    ∃ pattern ∈ p.endpoints, (pattern.matchPath request.endpoint).isSome = true

/-- Besides the scope it takes a value along the rule's dimension. -/
theorem SharesScope.governs_iff (h : e.SharesScope p) :
    e.Governs request ↔ p.InScope request ∧
      (e.dimension = .caller → request.caller.isSome = true) ∧
        (e.dimension = .tenant → request.tenant.isSome = true) := by
  have hmethods : (e.methods = [] ∨
      ∃ m ∈ e.methods, m = "*" ∨ Text.sameIgnoringCase m request.method = true) ↔
        (p.methods = [] ∨
          ∃ m ∈ p.methods, m = "*" ∨ Text.sameIgnoringCase m request.method = true) := by
    simp [h.methods, Text.upper_eq_star_iff, Text.sameIgnoringCase, Text.lower_upper]
  constructor
  · rintro ⟨henabled, hmethod, hcaller, htenant, hendpoint⟩
    exact ⟨⟨h.enabled ▸ henabled, hmethods.1 hmethod, h.endpoints ▸ hendpoint⟩, hcaller, htenant⟩
  · rintro ⟨⟨henabled, hmethod, hendpoint⟩, hcaller, htenant⟩
    exact ⟨h.enabled.symm ▸ henabled, hmethods.2 hmethod, hcaller, htenant,
      h.endpoints.symm ▸ hendpoint⟩

/-- **A rule is asked before what is derived from it.** -/
theorem askedBefore_derived {dimension : Dimension} {limit : Nat} {s : Specificity}
    (h : p.own.Closest request.endpoint s) :
    AskedBefore request p.own (p.own.derived dimension limit) := by
  -- priority and patterns are the same, so the ids decide
  refine ⟨s, s, h, h, .inr ⟨rfl, .inr ⟨rfl, ?_⟩⟩⟩
  rw [derived, String.append_assoc]
  exact Text.lt_append _ (by cases dimension <;> decide)

end Rule

/-! ## Room in a counter -/

/-- **How much of a rule's limit is used** under a key: what a fixed window that is not over has
counted, or how many instants of a log that is alive are inside the rule's window. -/
def Store.used (s : Store) (now : Nat) (key : String) (rule : Rule) : Nat :=
  match rule.algorithm, s.live? now key with
  | .fixedWindow, some (.fixed counter) => counter.count
  | .slidingWindow, some (.sliding log) =>
    log.instants.countP fun entry => !SlidingLog.hasLeft (Word.clamp rule.window) now entry
  | _, _ => 0

/-- What is inside the window is among what an attempt finds. -/
theorem SlidingLog.countP_le_length_found (log : SlidingLog) (window now : Nat) :
    (log.instants.countP fun entry => !hasLeft (Word.clamp window) now entry) ≤
      (log.found window now).length := by
  have hcount := count_eq_countP_found (l := { log with window := Word.clamp window }) rfl now
  exact hcount.trans_le (List.countP_le_length)

namespace Limiter

variable {l : Limiter} {rule : Rule} {value : String} {now : Nat} {x : Exchange} {o : Observation}
variable {u : Store}

/-- **A rule that is not exceeded had room** in the store that answered. -/
theorem Hears.used_lt (hlimit : 0 < rule.limit)
    (h : l.Hears rule (CounterKey.forValue rule value (now / 1000)) now x (.ok o))
    (hreply : x.reply = .answered (u.answer now x.call).1) (hroom : o.exceeded = false) :
    u.used now (l.keyOf rule value (now / 1000)) rule < rule.limit := by
  have hobserve := h.run_observe hreply
  unfold Store.used
  split
  · rename_i counter ha hlive
    obtain ⟨hcell, halive⟩ := Option.filter_eq_some_iff.1 hlive
    rw [run_observe_fixed ha, Prod.mk.injEq, Except.ok.injEq] at hobserve
    obtain ⟨rfl, -⟩ := hobserve
    have hroom := Nat.le_of_not_lt (of_decide_eq_false hroom)
    rw [Store.incrementFixed, Store.liveFixed_of_alive hcell (by simpa [Entry.isExpired] using halive)] at hroom
    exact hroom
  · rename_i log ha hlive
    obtain ⟨hcell, -⟩ := Option.filter_eq_some_iff.1 hlive
    rw [run_observe_sliding ha, Prod.mk.injEq, Except.ok.injEq] at hobserve
    obtain ⟨rfl, -⟩ := hobserve
    -- the attempt may have found more than that, and still there was room
    refine (log.countP_le_length_found rule.window now).trans_lt (Nat.lt_of_not_le ?_)
    intro hfull
    have hexceeded := (SlidingLog.attempt_of_full hfull).2.1
    rw [Observation.ofSliding, Store.incrementSliding,
      Store.slidingLog_of_sliding hcell] at hroom
    exact Bool.false_ne_true (hroom.symm.trans hexceeded)
  · exact hlimit

end Limiter

/-! ## Checks that are allowed -/

namespace Service

variable {s : Service}

/-- **A check that the rules allow** found room in the counter of each rule that governs it. -/
theorem used_lt_of_allows (hs : s.limiter.rules.Sound) (hdistinct : s.backend.store.Distinct)
    (hout : s.backend.outage = none) {request : Request}
    (hallows : (s.handle (.check request)).1.allowsBut Report.notAsked = true) {rule : Rule}
    (hr : rule ∈ s.limiter.rules.resolve request) :
    ∃ value, rule.valueOf request = some value ∧
      s.backend.store.used s.now (s.limiter.keyOf rule value (s.now / 1000)) rule < rule.limit := by
  obtain ⟨value, hvalue⟩ := Option.isSome_iff_exists.1 (RuleSet.isSome_valueOf_of_mem_resolve hr)
  refine ⟨value, hvalue, ?_⟩
  obtain ⟨hchecks, hreport⟩ := checks_of_no_outage hout request
  generalize ((s.limiter.evaluate request s.now).run (Store.reply s.now) s.backend.store).1 = e
    at hchecks hreport
  have hfailed : ∀ rule error, e ≠ .failed rule error := by
    rintro rule error rfl
    obtain ⟨x, hx, -, hunanswered⟩ := hchecks.exists_unanswered
    exact hunanswered (isAnswered_of_no_outage hout hx)
  rw [hreport] at hallows
  obtain ⟨x, hx, o, hheard, hroom⟩ := hchecks.heard_of_passes
    (Ending.passes_of_not_failed hfailed hallows) rule hr _ (forRequest_of_valueOf hvalue _)
  obtain ⟨-, u, -, -, hfades, hreply, -⟩ := exists_meeting_fades hs hdistinct
    Disturbance.onlyOutages_none hx (Exchange.countsUnder_iff.1 hheard.countsUnder).1
    hheard.isAnswered
  have hkey : x.call.key = s.limiter.keyOf rule value (s.now / 1000) := hheard.call_key
  rw [hkey] at hfades
  have hused := hheard.used_lt (hs.limit_pos _ (RuleSet.mem_of_mem_resolve hr)) hreply hroom
  rwa [Store.used, Store.live?_of_fades hfades] at hused

end Service

/-! ## The law -/

/-- **Further thresholds of a rule are limits of their own within its scope.** Take a rule set
that could be made, and a rule among those that it was made from.

All that the rule stands for is in force and has its endpoints, methods, window, algorithm,
priority, switch and message. There is a derived rule along a dimension exactly if the rule has
a threshold along it, and that is its limit. It governs a request if and only if the request is
in the rule's scope and, if it goes by callers, has a caller; so one that goes by addresses
governs whatever the rule itself does, and where both govern a request the rule is asked first.
No two of them ever count under the same key.

Take any history that puts the set in force, with jumps of the clock, reloads and outages, and
behind it a check while the store does not fail. If the request is allowed, and not because
limiting is switched off or the request is whitelisted, then the rule and each derived rule have
less than their limit used, as far as they govern the request. -/
theorem sub_limits_share_scope {rules : List Rule} {defaults : DefaultLimits} {set : RuleSet}
    (hbuild : RuleSet.build rules defaults = .ok set) {p : Rule} (hp : p ∈ rules) :
    p.own ∈ p.expand ∧
    (∀ e ∈ p.expand, e ∈ set.rules ∧ e.SharesScope p) ∧
    (∀ dimension, (∃ e ∈ p.expand, e.id = p.id ++ ":" ++ dimension.tag) ↔
      (p.limitAlong dimension).isSome = true) ∧
    (∀ dimension, ∀ e ∈ p.expand, e.id = p.id ++ ":" ++ dimension.tag →
      e.dimension = dimension ∧ p.limitAlong dimension = some e.limit ∧
      ∀ request,
        (e ∈ set.resolve request ↔
          p.InScope request ∧ (dimension = .caller → request.caller.isSome = true)) ∧
        (p.own ∈ set.resolve request →
          (dimension = .address → e ∈ set.resolve request) ∧
          (e ∈ set.resolve request → [p.own, e].Sublist (set.resolve request)))) ∧
    (∀ a ∈ p.expand, ∀ b ∈ p.expand, a ≠ b → ∀ space value value' seconds seconds',
      (CounterKey.forValue a value seconds).render space ≠
        (CounterKey.forValue b value' seconds').render space) ∧
    ∀ (l : Limiter) (start : Nat) (d : Disturbance) (commands : List Command) (request : Request),
      let s := (Service.start l start).after d commands
      d.OnlyOutages → s.limiter.rules = set → s.backend.outage = none →
      (s.handle (.check request)).1.allowsBut Report.notAsked = true →
      ∀ e ∈ p.expand, e ∈ set.resolve request → ∃ value, e.valueOf request = some value ∧
        s.backend.store.used s.now (s.limiter.keyOf e value (s.now / 1000)) e < e.limit := by
  have hs : set.Sound := RuleSet.sound_of_build hbuild
  have hmem : ∀ e ∈ p.expand, e ∈ set.rules := by
    intro e he
    rw [RuleSet.rules_of_build hbuild]
    exact List.mem_append_left _ (List.mem_flatMap.2 ⟨p, hp, he⟩)
  have hgoverns : ∀ e ∈ p.expand, ∀ request, e ∈ set.resolve request ↔ p.InScope request ∧
      (e.dimension = .caller → request.caller.isSome = true) ∧
        (e.dimension = .tenant → request.tenant.isSome = true) := by
    intro e he request
    rw [RuleSet.mem_resolve_iff, RuleSet.isSome_relevance?_iff, and_iff_right (hmem e he)]
    exact (Rule.sharesScope_of_mem_expand he).governs_iff
  have hown : p.own ∈ p.expand := Rule.mem_expand_iff.2 (.inl rfl)
  refine ⟨hown, fun e he => ⟨hmem e he, Rule.sharesScope_of_mem_expand he⟩,
    fun dimension => Rule.exists_derived_iff, ?_, ?_, ?_⟩
  · intro dimension e he hid
    obtain ⟨hlimit, hderived⟩ := Rule.eq_derived_of_id he hid
    have hdimension : e.dimension = dimension := by
      rw [hderived]
      rfl
    have hresolve : ∀ request, e ∈ set.resolve request ↔
        p.InScope request ∧ (dimension = .caller → request.caller.isSome = true) := by
      intro request
      -- there is no threshold along tenants
      have htenant : e.dimension ≠ .tenant := by
        rw [hdimension]
        rintro rfl
        cases hlimit
      rw [hgoverns e he, hdimension]
      simp [hdimension ▸ htenant]
    refine ⟨hdimension, hlimit, fun request => ⟨hresolve request, fun hgoverned => ⟨?_, ?_⟩⟩⟩
    · rintro rfl
      exact (hresolve request).2 ⟨((hgoverns _ hown request).1 hgoverned).1, nofun⟩
    · intro hsub
      obtain ⟨closeness, hclosest⟩ := RuleSet.exists_closest_of_mem_resolve hgoverned
      have hbefore : Rule.AskedBefore request p.own e := by
        rw [hderived]
        exact Rule.askedBefore_derived hclosest
      exact hbefore.sublist (hs.pairwise_askedBefore request) hgoverned hsub
  · intro a ha b hb hne space value value' seconds seconds' hkey
    have hids := congrArg CounterKey.ruleId (CounterKey.render_injective hkey)
    exact hne (hs.eq_of_id (hmem a ha) (hmem b hb) hids)
  · intro l start d commands request s hd hset hout hallows e _ hr
    rw [← hset] at hs hr
    exact Service.used_lt_of_allows hs (Service.distinct_after hd Store.distinct_empty commands)
      hout hallows hr

/-! ## A tenant's rule with two more thresholds -/

namespace SubLimitsSample

def search : Rule :=
  { Rule.basic "search" .tenant 10 60 with
    methods := ["get"]
    algorithm := .slidingWindow
    limitPerCaller := some 3
    limitPerAddress := some 2 }

def limiter : Limiter := ⟨⟨true, false, 50, "turnstile"⟩, ⟨search.expand⟩, .ofConfig .empty⟩

def visit : Request := Request.describe "GET" "/search" "10.0.0.1"

/-- The same by someone who is known. -/
def request : Request := (visit.withTenant (some "acme")).withCaller (some "ann")

end SubLimitsSample

open SubLimitsSample in
/-- A visitor without a tenant has searched from the same address before, which the rule itself
does not count. The address still has room for the request. -/
theorem sub_limits_share_scope_of_search :
    let s := (Service.start limiter 60000).after .none [.check visit]
    limiter.rules.resolve visit = [search.own.derived .address 2] ∧
      limiter.rules.resolve request = search.expand ∧
      (s.handle (.check request)).1.allowsBut Report.notAsked = true ∧
      ∃ e ∈ search.expand, e.id = "search:ip" ∧ search.limitPerAddress = some e.limit ∧
        [search.own, e].Sublist (limiter.rules.resolve request) ∧
        ∃ value, e.valueOf request = some value ∧
          s.backend.store.used s.now (s.limiter.keyOf e value (s.now / 1000)) e < e.limit := by
  intro s
  have hbuild : RuleSet.build [search] .empty = .ok limiter.rules := by decide +kernel
  have hvisit : limiter.rules.resolve visit = [search.own.derived .address 2] := by decide +kernel
  have hrequest : limiter.rules.resolve request = search.expand := by cbv
  have hallows : (s.handle (.check request)).1.allowsBut Report.notAsked = true := by
    have hresolve : s.limiter.rules.resolve request = search.expand := hrequest
    change (Report.decision (s.converse (s.limiter.check request s.now)).1.1
      (s.converse (s.limiter.check request s.now)).1.2).allowsBut Report.notAsked = true
    rw [Limiter.check, Limiter.evaluate, hresolve]
    decide +kernel
  obtain ⟨hown, -, hderived, hsub, -, hroom⟩ := sub_limits_share_scope hbuild List.mem_cons_self
  obtain ⟨e, he, hid⟩ := (hderived .address).2 rfl
  obtain ⟨-, hlimit, hgoverns⟩ := hsub .address e he hid
  obtain ⟨hwherever, hbehind⟩ := (hgoverns request).2 (hrequest ▸ hown)
  have hgoverned := hwherever rfl
  have hout : s.backend.outage = none := Service.outage_after rfl (by decide)
  exact ⟨hvisit, hrequest, hallows, e, he, hid, hlimit, hbehind hgoverned,
    hroom limiter 60000 .none [.check visit] request Disturbance.onlyOutages_none rfl hout hallows
      e he hgoverned⟩

end Admission
