/-
Where the default limits stand among the rules.

The default limits are rules without patterns on the last three priorities there are, so
they are meant to be asked when every rule that was written down has been asked. A rule
may be written down with one of these priorities too. Then it competes with the default
limits by closeness and by id, and loses to those on a lower number of the three, so they
come last exactly if no rule that governs the request is in such a position
(`fallback_last_iff`).
-/
import Admission.Proofs.Precedence

set_option autoImplicit false

namespace Admission

/-! ## Default limits as rules -/

namespace DefaultLimits

variable {defaults : DefaultLimits} {d : Rule}

theorem mem_rules_iff : d ∈ defaults.rules ↔
    (∃ limit, defaults.perTenant = some limit ∧ rule .tenant (lastPriority - 2) limit = d) ∨
    (∃ limit, defaults.perCaller = some limit ∧ rule .caller (lastPriority - 1) limit = d) ∨
    (∃ limit, defaults.perAddress = some limit ∧ rule .address lastPriority limit = d) := by
  simp only [rules, List.mem_append, Option.mem_toList, Option.map_eq_some_iff, or_assoc]

/-- A default limit covers everything and has no further thresholds. -/
theorem expand_of_mem_rules (h : d ∈ defaults.rules) : d.endpoints = [] ∧ d.expand = [d] := by
  rcases mem_rules_iff.1 h with ⟨limit, -, rfl⟩ | ⟨limit, -, rfl⟩ | ⟨limit, -, rfl⟩ <;>
    exact ⟨rfl, rfl⟩

theorem le_priority_of_mem_rules (h : d ∈ defaults.rules) : lastPriority - 2 ≤ d.priority := by
  rcases mem_rules_iff.1 h with ⟨limit, -, rfl⟩ | ⟨limit, -, rfl⟩ | ⟨limit, -, rfl⟩ <;>
    simp [rule]

theorem flatMap_expand_rules (defaults : DefaultLimits) :
    defaults.rules.flatMap Rule.expand = defaults.rules := by
  rw [List.flatMap_congr fun d hd => (expand_of_mem_rules hd).2]
  exact List.flatMap_singleton' _

theorem pairwise_priority_rules (defaults : DefaultLimits) :
    defaults.rules.Pairwise fun a b => a.priority < b.priority := by
  unfold rules
  cases defaults.perTenant <;> cases defaults.perCaller <;> cases defaults.perAddress <;>
    simp [rule]

theorem dimensions_rules (defaults : DefaultLimits) :
    (defaults.rules.map Rule.dimension).Sublist [.tenant, .caller, .address] := by
  unfold rules
  cases defaults.perTenant <;> cases defaults.perCaller <;> cases defaults.perAddress <;>
    simp [rule, Rule.basic]

/-- No description is looser than that of a default limit. -/
theorem closest_of_mem_rules (h : d ∈ defaults.rules) (path : String) : d.Closest path .least :=
  .inl ⟨(expand_of_mem_rules h).1, rfl⟩

end DefaultLimits

/-! ## Rules that were written down -/

/-- Whatever is derived from a rule has its priority. -/
theorem Rule.priority_of_mem_expand {r e : Rule} (h : e ∈ r.expand) : e.priority = r.priority := by
  unfold expand at h
  simp only [List.mem_append, List.mem_singleton, Option.mem_toList, Option.map_eq_some_iff] at h
  rcases h with (rfl | ⟨limit, -, rfl⟩) | ⟨limit, -, rfl⟩ <;> rfl

namespace RuleSet

variable {rules : List Rule} {defaults : DefaultLimits} {set : RuleSet}

/-- **What a rule set holds:** the rules that were written down, expanded, and then the
default limits. -/
theorem rules_of_build (hbuild : build rules defaults = .ok set) :
    set.rules = rules.flatMap Rule.expand ++ defaults.rules := by
  obtain ⟨-, -, rfl⟩ := build_eq_ok_iff.1 hbuild
  simp only [List.flatMap_append, DefaultLimits.flatMap_expand_rules]

/-- No default limit was written down: it has another id. -/
theorem notMem_rules_of_mem_expand (hbuild : build rules defaults = .ok set) {e : Rule}
    (he : e ∈ rules.flatMap Rule.expand) : e ∉ defaults.rules := by
  have hids := (sound_of_build hbuild).ids
  rw [rules_of_build hbuild] at hids
  exact List.disjoint_of_nodup_append hids.of_map he

/-- **The default limits come last:** in front of them are rules that were written down
and nothing else, and they stand in their own order. -/
def FallbackLast (rules : List Rule) (defaults : DefaultLimits) (listed : List Rule) : Prop :=
  ∃ front, (∀ r ∈ front, r ∈ rules.flatMap Rule.expand) ∧
    listed = front ++ defaults.rules.filter (· ∈ listed)

end RuleSet

/-- **A rule goes ahead of a default limit:** it has a lower priority number; or the same
one, and it describes the path more closely or has the lower id. -/
def Rule.GoesAhead (request : Request) (e d : Rule) : Prop :=
  e.priority < d.priority ∨
    e.priority = d.priority ∧ (¬ e.Closest request.endpoint .least ∨ e.id < d.id)

namespace RuleSet

variable {rules : List Rule} {defaults : DefaultLimits} {set : RuleSet} {request : Request}

theorem exists_closest_of_mem_resolve {r : Rule} (h : r ∈ set.resolve request) :
    ∃ s, r.Closest request.endpoint s := by
  obtain ⟨-, hrelevant⟩ := mem_resolve_iff.1 h
  obtain ⟨s, hs⟩ := Option.isSome_iff_exists.1 hrelevant
  exact ⟨s, closest_of_relevance? hs⟩

theorem askedBefore_iff_goesAhead {e d : Rule} (he : e ∈ set.resolve request)
    (hd : d ∈ defaults.rules) : Rule.AskedBefore request e d ↔ e.GoesAhead request d := by
  have hloosest := DefaultLimits.closest_of_mem_rules hd request.endpoint
  obtain ⟨s, hs⟩ := exists_closest_of_mem_resolve he
  -- the default limit is described as loosely as can be, so only the rule's closeness matters
  have hcloser : Specificity.least.rank < s.rank ↔ ¬ e.Closest request.endpoint .least := by
    rw [lt_iff_le_and_ne, and_iff_right (Specificity.least_rank_le s), not_iff_not]
    constructor
    · intro h
      rwa [Specificity.rank_injective h]
    · intro h
      rw [h.unique hs]
  constructor
  · rintro ⟨s', t, hs', ht, h⟩
    obtain rfl := hs.unique hs'
    obtain rfl := hloosest.unique ht
    rw [hcloser] at h
    exact h.imp_right (And.imp_right (Or.imp_right And.right))
  · intro h
    refine ⟨s, .least, hs, hloosest, h.imp_right (And.imp_right ?_)⟩
    rintro (h | hid)
    · exact .inl (hcloser.2 h)
    · by_cases hleast : e.Closest request.endpoint .least
      · exact .inr ⟨by rw [hs.unique hleast], hid⟩
      · exact .inl (hcloser.2 hleast)

/-- The default limits that govern a request are asked in their own order. -/
theorem pairwise_askedBefore_fallback (defaults : DefaultLimits) (request : Request) :
    defaults.rules.Pairwise (Rule.AskedBefore request) := by
  apply defaults.pairwise_priority_rules.imp_of_mem
  intro a b ha hb hlt
  exact ⟨.least, .least, DefaultLimits.closest_of_mem_rules ha _,
    DefaultLimits.closest_of_mem_rules hb _, .inl hlt⟩

/-- **Among the rules that are asked the default limits stand in their own order.** -/
theorem filter_fallback_eq (hbuild : build rules defaults = .ok set) (request : Request) :
    (set.resolve request).filter (· ∈ defaults.rules) =
      defaults.rules.filter (· ∈ set.resolve request) := by
  have hlisted := (sound_of_build hbuild).pairwise_askedBefore request
  apply Rule.eq_of_pairwise_askedBefore (hlisted.filter _)
    ((pairwise_askedBefore_fallback defaults request).filter _)
  intro r
  simp only [List.mem_filter, decide_eq_true_eq]
  exact and_comm

/-- **When the default limits come last:** every rule that was written down and governs the
request goes ahead of every default limit that does. -/
theorem fallbackLast_resolve_iff (hbuild : build rules defaults = .ok set) (request : Request) :
    FallbackLast rules defaults (set.resolve request) ↔
      ∀ e ∈ rules.flatMap Rule.expand, ∀ d ∈ defaults.rules,
        e ∈ set.resolve request → d ∈ set.resolve request → e.GoesAhead request d := by
  have hlisted := (sound_of_build hbuild).pairwise_askedBefore request
  constructor
  · rintro ⟨front, -, hsplit⟩ e he d hd hel hdl
    rw [hsplit, List.pairwise_append] at hlisted
    have hfront : e ∈ front := by
      rw [hsplit, List.mem_append, List.mem_filter] at hel
      exact hel.resolve_right fun h => notMem_rules_of_mem_expand hbuild he h.1
    rw [← askedBefore_iff_goesAhead hel hd]
    exact hlisted.2.2 e hfront d (List.mem_filter.2 ⟨hd, decide_eq_true hdl⟩)
  · intro hahead
    refine ⟨(set.resolve request).filter (· ∈ rules.flatMap Rule.expand), by simp, ?_⟩
    apply Rule.eq_of_pairwise_askedBefore hlisted
    · rw [List.pairwise_append]
      refine ⟨hlisted.filter _, (pairwise_askedBefore_fallback defaults request).filter _, ?_⟩
      intro e he d hd
      rw [List.mem_filter, decide_eq_true_eq] at he hd
      exact (askedBefore_iff_goesAhead he.1 hd.1).2 (hahead e he.2 d hd.1 he.1 hd.2)
    · intro r
      have hmem : r ∈ set.resolve request → r ∈ rules.flatMap Rule.expand ∨ r ∈ defaults.rules := by
        intro hr
        rw [← List.mem_append, ← rules_of_build hbuild]
        exact mem_of_mem_resolve hr
      simp only [List.mem_append, List.mem_filter, decide_eq_true_eq]
      tauto

end RuleSet

/-! ## The law -/

/-- **When the default limits are asked last.** Take a rule set that could be made, from any
list of rules and any default limits, and a request.

Those default limits that govern the request are asked in the order tenant, caller,
address. They are asked last, after all rules that were written down or derived from such,
if and only if every one of these that governs the request has a lower priority number than
each of them; or the same number, and patterns that describe the path more closely or a
lower id. That is so for every request if all priorities written down are below the last
three. -/
theorem fallback_last_iff {rules : List Rule} {defaults : DefaultLimits} {set : RuleSet}
    (hbuild : RuleSet.build rules defaults = .ok set) (request : Request) :
    let listed := set.resolve request
    ((listed.filter (· ∈ defaults.rules)).map Rule.dimension).Sublist
        [.tenant, .caller, .address] ∧
      (RuleSet.FallbackLast rules defaults listed ↔
        ∀ e ∈ rules.flatMap Rule.expand, ∀ d ∈ defaults.rules, e ∈ listed → d ∈ listed →
          e.priority < d.priority ∨
            e.priority = d.priority ∧ (¬ e.Closest request.endpoint .least ∨ e.id < d.id)) ∧
      ((∀ r ∈ rules, r.priority < DefaultLimits.lastPriority - 2) →
        RuleSet.FallbackLast rules defaults listed) := by
  intro listed
  refine ⟨?_, RuleSet.fallbackLast_resolve_iff hbuild request, ?_⟩
  · rw [RuleSet.filter_fallback_eq hbuild]
    exact (List.filter_sublist.map Rule.dimension).trans defaults.dimensions_rules
  · intro hbelow
    rw [RuleSet.fallbackLast_resolve_iff hbuild]
    intro e he d hd _ _
    obtain ⟨r, hr, he⟩ := List.mem_flatMap.1 he
    have hlast := DefaultLimits.le_priority_of_mem_rules hd
    have hr := hbelow r hr
    rw [← Rule.priority_of_mem_expand he] at hr
    exact .inl (by omega)

/-! ## A rule on the last priority -/

namespace FallbackSample

/-- A rule that is written down with the last priority there is. -/
def late : Rule := { Rule.basic "late" .address 10 60 with priority := DefaultLimits.lastPriority }

/-- A rule on the last priority, with a closer description than a default limit has. -/
def upload : Rule :=
  { Rule.basic "upload" .caller 10 60 with
    priority := DefaultLimits.lastPriority
    endpoints := [⟨"/upload", some [.literal "upload"]⟩] }

def perTenant : DefaultLimits := ⟨none, none, some ⟨100, 60, .fixedWindow⟩⟩

def perAddress : DefaultLimits := ⟨some ⟨100, 60, .fixedWindow⟩, none, none⟩

def request : Request :=
  ((Request.describe "GET" "/upload" "10.0.0.1").withCaller (some "ann")).withTenant (some "acme")

end FallbackSample

open FallbackSample in
/-- **A default limit may be asked before a rule that was written down:** the tenant's is, if
the rule is on the last priority. -/
theorem fallback_not_last_of_late :
    ∃ set, RuleSet.build [late] perTenant = .ok set ∧
      (set.resolve request).map Rule.id = ["default:tenant", "late"] ∧
      ¬ RuleSet.FallbackLast [late] perTenant (set.resolve request) := by
  have hbuild : RuleSet.build [late] perTenant =
      .ok ⟨[late].flatMap Rule.expand ++ perTenant.rules⟩ := by decide +kernel
  refine ⟨_, hbuild, by cbv, ?_⟩
  rw [RuleSet.fallbackLast_resolve_iff hbuild]
  intro hahead
  have hlate := hahead late (by decide) (DefaultLimits.rule .tenant 2147483645 ⟨100, 60, .fixedWindow⟩)
    (by decide) (RuleSet.mem_resolve_iff.2 ⟨by decide, by cbv⟩)
    (RuleSet.mem_resolve_iff.2 ⟨by decide, by cbv⟩)
  revert hlate
  simp [Rule.GoesAhead, late, DefaultLimits.rule, DefaultLimits.lastPriority]

open FallbackSample in
/-- On the same number as the address's default limit a closer description goes ahead. -/
theorem fallback_last_of_upload :
    ∃ set, RuleSet.build [upload] perAddress = .ok set ∧
      (set.resolve request).map Rule.id = ["upload", "default:ip"] ∧
      RuleSet.FallbackLast [upload] perAddress (set.resolve request) := by
  have hbuild : RuleSet.build [upload] perAddress =
      .ok ⟨[upload].flatMap Rule.expand ++ perAddress.rules⟩ := by decide +kernel
  obtain ⟨-, hiff, -⟩ := fallback_last_iff hbuild request
  refine ⟨_, hbuild, by cbv, hiff.2 ?_⟩
  intro e he d hd _ _
  have he : e = upload := by simpa [upload, Rule.expand, Rule.basic] using he
  have hd : d = DefaultLimits.rule .address 2147483647 ⟨100, 60, .fixedWindow⟩ := by
    simpa [perAddress, DefaultLimits.rules, DefaultLimits.lastPriority] using hd
  subst he hd
  right
  refine ⟨rfl, .inl ?_⟩
  have hexact : upload.Closest request.endpoint ⟨true, 1, 1⟩ := .of_matchEndpoint (by cbv)
  intro hleast
  exact absurd (hleast.unique hexact) (by decide)

end Admission
