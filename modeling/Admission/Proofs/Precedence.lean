/-
The order in which rules are asked.

A rule that governs a request stands at a place (`RuleSet.place`): its priority number,
then how closely it describes the request's path, then its id. Places are compared part
by part, and rules in force have ids of their own, so no two rules share a place: the
order of asking is strict, it leaves nothing to the sorting, and the order in which the
rules were written down leaves no trace in it.

The statement (`resolve_in_order`) speaks of rules and patterns only. Which rules govern
a request is `Rule.Governs`, the closest of a rule's descriptions of a path is
`Rule.Closest`, and who is asked before whom is `Rule.AskedBefore`.
-/
import Admission.Proofs.Sound

set_option autoImplicit false

namespace Admission

/-! ## How close a description is -/

namespace Specificity

/-- What closeness is compared by: being exact, then the number of literal segments, then
the length. -/
def rank (s : Specificity) : Bool ×ₗ ℕ ×ₗ ℕ := toLex (s.exact, toLex (s.literals, s.segments))

theorem rank_injective : Function.Injective rank := by
  rintro ⟨exact_, literals, segments⟩ ⟨exact_', literals', segments'⟩ h
  simpa [rank] using h

theorem below_iff {a b : Specificity} : a.below b = true ↔ a.rank < b.rank := by
  simp only [below, rank, Prod.Lex.toLex_lt_toLex, Bool.or_eq_true, Bool.and_eq_true,
    Bool.not_eq_true', decide_eq_true_eq, beq_iff_eq, Bool.lt_iff]

/-- Nothing describes a path less closely than a pattern that covers everything. -/
theorem least_rank_le (s : Specificity) : least.rank ≤ s.rank := by
  rw [← not_lt, ← below_iff]
  simp [below, least]

theorem rank_le_max_left (a b : Specificity) : a.rank ≤ (a.max b).rank := by
  unfold max
  split
  · rename_i hbelow
    exact (below_iff.1 hbelow).le
  · exact le_rfl

theorem rank_le_max_right (a b : Specificity) : b.rank ≤ (a.max b).rank := by
  unfold max
  split
  · exact le_rfl
  · rename_i hbelow
    rwa [below_iff, not_lt] at hbelow

theorem max_eq_or (a b : Specificity) : a.max b = a ∨ a.max b = b := by
  unfold max
  split <;> simp

/-- The closest of some descriptions is one of them, -/
theorem foldl_max_mem (first : Specificity) (rest : List Specificity) :
    rest.foldl max first ∈ first :: rest := by
  induction rest generalizing first with
  | nil => simp
  | cons second rest ih =>
    rw [List.foldl_cons]
    rcases List.mem_cons.1 (ih (first.max second)) with h | h
    · rw [h]
      rcases max_eq_or first second with hone | hone <;> simp [hone]
    · simp [h]

/-- and none of them is closer. -/
theorem rank_le_foldl_max {s first : Specificity} {rest : List Specificity}
    (hs : s ∈ first :: rest) : s.rank ≤ (rest.foldl max first).rank := by
  induction rest generalizing s first with
  | nil =>
    rw [List.mem_singleton.1 hs]
    exact le_rfl
  | cons second rest ih =>
    rw [List.foldl_cons]
    have hfirst := ih (List.mem_cons_self (a := first.max second))
    rcases List.mem_cons.1 hs with rfl | hs
    · exact (rank_le_max_left _ _).trans hfirst
    · rcases List.mem_cons.1 hs with rfl | hs
      · exact (rank_le_max_right _ _).trans hfirst
      · exact ih (List.mem_cons_of_mem _ hs)

end Specificity

/-! ## Rules and requests -/

namespace Rule

/-- **A rule governs a request:** it is switched on, covers the method, finds a value to
count along, and has a pattern that covers the path, or no pattern. -/
structure Governs (r : Rule) (request : Request) : Prop where
  enabled : r.enabled = true
  method : r.methods = [] ∨
    ∃ m ∈ r.methods, m = "*" ∨ Text.sameIgnoringCase m request.method = true
  caller : r.dimension = .caller → request.caller.isSome = true
  tenant : r.dimension = .tenant → request.tenant.isSome = true
  endpoint : r.endpoints = [] ∨ ∃ p ∈ r.endpoints, (p.matchPath request.endpoint).isSome = true

/-- **The closest description** of a path among the patterns of a rule; a rule without
patterns describes every path as loosely as can be. -/
def Closest (r : Rule) (path : String) (s : Specificity) : Prop :=
  (r.endpoints = [] ∧ s = .least) ∨
    (∃ p ∈ r.endpoints, p.matchPath path = some s) ∧
      ∀ p ∈ r.endpoints, ∀ t, p.matchPath path = some t → t.rank ≤ s.rank

/-- **A rule is asked before another:** it has the lower priority number; or the same
number and the closer description; or the same of both, and the lower id. -/
def AskedBefore (request : Request) (a b : Rule) : Prop :=
  ∃ s t, a.Closest request.endpoint s ∧ b.Closest request.endpoint t ∧
    (a.priority < b.priority ∨
      a.priority = b.priority ∧ (t.rank < s.rank ∨ s.rank = t.rank ∧ a.id < b.id))

variable {r : Rule} {path : String} {request : Request}

theorem Closest.of_matchEndpoint {s : Specificity} (h : r.matchEndpoint path = some s) :
    r.Closest path s := by
  unfold matchEndpoint at h
  split at h
  · rename_i hnone
    exact .inl ⟨by simpa using hnone, by simpa using h.symm⟩
  · right
    split at h
    · cases h
    · rename_i first rest hmatches
      have hmem := Specificity.foldl_max_mem first rest
      rw [Option.some.inj h, ← hmatches, List.mem_filterMap] at hmem
      refine ⟨hmem, ?_⟩
      intro p hp t ht
      rw [← Option.some.inj h]
      apply Specificity.rank_le_foldl_max
      rw [← hmatches]
      exact List.mem_filterMap.2 ⟨p, hp, ht⟩

/-- A rule has one closest description of a path at most. -/
theorem Closest.unique {s t : Specificity} (hs : r.Closest path s) (ht : r.Closest path t) :
    s = t := by
  rcases hs with ⟨hnone, rfl⟩ | ⟨⟨p, hp, hps⟩, hs⟩
  · rcases ht with ⟨-, rfl⟩ | ⟨⟨q, hq, -⟩, -⟩
    · rfl
    · simp [hnone] at hq
  · rcases ht with ⟨hnone, -⟩ | ⟨⟨q, hq, hqt⟩, ht⟩
    · simp [hnone] at hp
    · exact Specificity.rank_injective (le_antisymm (ht p hp s hps) (hs q hq t hqt))

/-- No two rules are asked before each other. -/
theorem AskedBefore.asymm {a b : Rule} (h : AskedBefore request a b) :
    ¬ AskedBefore request b a := by
  rintro ⟨t', s', ht', hs', hba⟩
  obtain ⟨s, t, hs, ht, hab⟩ := h
  obtain rfl := hs.unique hs'
  obtain rfl := ht.unique ht'
  rcases hab with hab | ⟨hpriority, hab | ⟨hrank, hid⟩⟩
  · rcases hba with hba | ⟨hba, -⟩ <;> omega
  · rcases hba with hba | ⟨-, hba | ⟨hba, -⟩⟩
    · omega
    · exact lt_asymm hab hba
    · exact absurd hba hab.ne
  · rcases hba with hba | ⟨-, hba | ⟨-, hba⟩⟩
    · omega
    · exact absurd hrank hba.ne
    · exact lt_asymm hid hba

/-- In the order of asking, what is asked before a rule stands in front of it. -/
theorem AskedBefore.mem_front {a b : Rule} {front back : List Rule}
    (h : AskedBefore request a b) (hsorted : (front ++ b :: back).Pairwise (AskedBefore request))
    (ha : a ∈ front ++ b :: back) : a ∈ front := by
  rcases List.mem_append.1 ha with ha | ha
  · exact ha
  · have hbehind := (List.pairwise_cons.1 (List.pairwise_append.1 hsorted).2.1).1
    rcases List.mem_cons.1 ha with rfl | ha
    · exact absurd h h.asymm
    · exact absurd (hbehind a ha) h.asymm

theorem AskedBefore.sublist {a b : Rule} {rules : List Rule} (h : AskedBefore request a b)
    (hsorted : rules.Pairwise (AskedBefore request)) (ha : a ∈ rules) (hb : b ∈ rules) :
    [a, b].Sublist rules := by
  obtain ⟨front, back, rfl⟩ := List.append_of_mem hb
  exact (List.singleton_sublist.2 (h.mem_front hsorted ha)).append
    (List.singleton_sublist.2 List.mem_cons_self)

/-- **There is one way only to put rules in the order of asking.** -/
theorem eq_of_pairwise_askedBefore {as bs : List Rule} (ha : as.Pairwise (AskedBefore request))
    (hb : bs.Pairwise (AskedBefore request)) (hmem : ∀ r, r ∈ as ↔ r ∈ bs) : as = bs := by
  have hnodup : ∀ {rules : List Rule}, rules.Pairwise (AskedBefore request) → rules.Nodup := by
    intro rules h
    apply h.imp
    rintro a b hab rfl
    exact hab.asymm hab
  refine List.Perm.eq_of_pairwise ?_ ha hb ((List.perm_ext_iff_of_nodup (hnodup ha) (hnodup hb)).2 hmem)
  intro a b _ _ hab hba
  exact absurd hba hab.asymm

theorem isSome_matchEndpoint_iff :
    (r.matchEndpoint path).isSome = true ↔
      r.endpoints = [] ∨ ∃ p ∈ r.endpoints, (p.matchPath path).isSome = true := by
  unfold matchEndpoint
  by_cases hnone : r.endpoints = []
  · simp [hnone]
  · simp only [List.isEmpty_iff, hnone, if_false, false_or]
    split
    · rename_i hmatches
      rw [List.filterMap_eq_nil_iff] at hmatches
      simp only [Option.isSome_none, Bool.false_eq_true, false_iff, not_exists, not_and]
      intro p hp
      simp [hmatches p hp]
    · rename_i first rest hmatches
      have hmem : first ∈ r.endpoints.filterMap (·.matchPath path) := by simp [hmatches]
      obtain ⟨p, hp, hfirst⟩ := List.mem_filterMap.1 hmem
      exact iff_of_true rfl ⟨p, hp, by simp [hfirst]⟩

end Rule

/-! ## Places -/

namespace RuleSet

/-- **The place of a rule** that describes the request so closely. Closer comes first. -/
def place (p : Specificity × Rule) : ℤ ×ₗ (Bool ×ₗ ℕ ×ₗ ℕ)ᵒᵈ ×ₗ String :=
  toLex (p.2.priority, toLex (OrderDual.toDual p.1.rank, p.2.id))

/-- The order of the rules is the order of their places. -/
theorem notAfter_iff {a b : Specificity × Rule} : notAfter a b = true ↔ place a ≤ place b := by
  unfold notAfter place
  rw [Prod.Lex.toLex_le_toLex, Prod.Lex.toLex_le_toLex, OrderDual.toDual_lt_toDual]
  dsimp only
  split
  · rename_i hpriority
    simp [hpriority]
  · rename_i hpriority
    rw [not_not] at hpriority
    split
    · rename_i hcloseness
      have hrank : OrderDual.toDual a.1.rank ≠ OrderDual.toDual b.1.rank :=
        fun h => hcloseness (Specificity.rank_injective (OrderDual.toDual_inj.1 h))
      simp [hpriority, hrank, Specificity.below_iff]
    · rename_i hcloseness
      rw [not_not] at hcloseness
      simp [hpriority, hcloseness]

variable {request : Request}

theorem isSome_relevance?_iff {r : Rule} :
    (relevance? request r).isSome = true ↔ r.Governs request := by
  have happlies : r.applies request = true ↔ (r.dimension = .caller → request.caller.isSome = true) ∧
      (r.dimension = .tenant → request.tenant.isSome = true) := by
    unfold Rule.applies
    split <;> simp_all
  have hmethod : r.coversMethod request.method = true ↔ r.methods = [] ∨
      ∃ m ∈ r.methods, m = "*" ∨ Text.sameIgnoringCase m request.method = true := by
    simp [Rule.coversMethod]
  have hrelevance : (relevance? request r).isSome = true ↔ (r.enabled = true ∧
      r.coversMethod request.method = true ∧ r.applies request = true) ∧
        (r.matchEndpoint request.endpoint).isSome = true := by
    unfold relevance?
    split <;> simp_all
  rw [hrelevance, happlies, hmethod, Rule.isSome_matchEndpoint_iff]
  constructor
  · rintro ⟨⟨henabled, hmethod, hcaller, htenant⟩, hendpoint⟩
    exact ⟨henabled, hmethod, hcaller, htenant, hendpoint⟩
  · rintro ⟨henabled, hmethod, hcaller, htenant, hendpoint⟩
    exact ⟨⟨henabled, hmethod, hcaller, htenant⟩, hendpoint⟩

theorem closest_of_relevance? {r : Rule} {s : Specificity} (h : relevance? request r = some s) :
    r.Closest request.endpoint s := by
  unfold relevance? at h
  split at h
  · exact .of_matchEndpoint h
  · cases h

/-- Sorted rules stand in the order of their places. -/
theorem pairwise_place_mergeSort (relevant : List (Specificity × Rule)) :
    (relevant.mergeSort notAfter).Pairwise fun a b => place a ≤ place b := by
  refine (List.pairwise_mergeSort ?_ ?_ relevant).imp notAfter_iff.1
  · intro a b c hab hbc
    exact notAfter_iff.2 ((notAfter_iff.1 hab).trans (notAfter_iff.1 hbc))
  · intro a b
    rw [Bool.or_eq_true, notAfter_iff, notAfter_iff]
    exact le_total _ _

/-- A lower place is asked before, if the places are those of the closest descriptions. -/
theorem askedBefore_of_place_lt {s t : Specificity} {a b : Rule}
    (hs : a.Closest request.endpoint s) (ht : b.Closest request.endpoint t)
    (h : place (s, a) < place (t, b)) : Rule.AskedBefore request a b := by
  unfold place at h
  rw [Prod.Lex.toLex_lt_toLex, Prod.Lex.toLex_lt_toLex, OrderDual.toDual_lt_toDual,
    OrderDual.toDual_inj] at h
  exact ⟨s, t, hs, ht, h⟩

/-- **The rules that govern a request are asked in the order of their places.** -/
theorem Sound.pairwise_askedBefore {set : RuleSet} (h : set.Sound) (request : Request) :
    (set.resolve request).Pairwise (Rule.AskedBefore request) := by
  have hids := h.ids_resolve request
  unfold resolve at hids ⊢
  dsimp only at hids ⊢
  generalize hrelevant : (set.rules.filterMap fun r => (relevance? request r).map (·, r)) =
    relevant at hids ⊢
  rw [List.map_map, List.Nodup, List.pairwise_map] at hids
  rw [List.pairwise_map]
  -- what is sorted is each rule with the closest of its descriptions
  have hclosest : ∀ p ∈ relevant, p.2.Closest request.endpoint p.1 := by
    intro p hp
    rw [← hrelevant, List.mem_filterMap] at hp
    obtain ⟨r, -, hr⟩ := hp
    obtain ⟨s, hs, rfl⟩ := Option.map_eq_some_iff.1 hr
    exact closest_of_relevance? hs
  apply ((pairwise_place_mergeSort relevant).and hids).imp_of_mem
  rintro a b ha hb ⟨hle, hid⟩
  rw [List.mem_mergeSort] at ha hb
  apply askedBefore_of_place_lt (hclosest a ha) (hclosest b hb)
  apply lt_of_le_of_ne hle
  intro heq
  exact hid (congrArg (fun p => (ofLex (ofLex p).2).2) heq)

/-! ## The order in which rules are written down -/

theorem firstRepeated_eq_none_iff {seen : List String} {rules : List Rule} :
    firstRepeated seen rules = none ↔
      (rules.map Rule.id).Nodup ∧ ∀ r ∈ rules, r.id ∉ seen := by
  refine ⟨nodup_of_firstRepeated_eq_none, ?_⟩
  rintro ⟨hnodup, hseen⟩
  induction rules generalizing seen with
  | nil => rfl
  | cons r rest ih =>
    rw [List.map_cons, List.nodup_cons] at hnodup
    rw [List.forall_mem_cons] at hseen
    rw [firstRepeated, if_neg hseen.1]
    apply ih hnodup.2
    intro d hd hmem
    rcases List.mem_cons.1 hmem with heq | hmem
    · exact hnodup.1 (heq ▸ List.mem_map_of_mem hd)
    · exact hseen.2 d hd hmem

/-- **When a rule set can be made, and what it holds:** no rule may have a fault, and no
id may come twice once the rules are expanded. -/
theorem build_eq_ok_iff {rules : List Rule} {defaults : DefaultLimits} {set : RuleSet} :
    build rules defaults = .ok set ↔
      (∀ r ∈ rules ++ defaults.rules, r.error? = none) ∧
        (((rules ++ defaults.rules).flatMap Rule.expand).map Rule.id).Nodup ∧
          set = ⟨(rules ++ defaults.rules).flatMap Rule.expand⟩ := by
  unfold build
  dsimp only
  split
  · rename_i error hfault
    have hsome : ¬ ∀ r ∈ rules ++ defaults.rules, r.error? = none := by
      rw [← List.findSome?_eq_none_iff, hfault]
      simp
    exact iff_of_false (by simp) (fun h => hsome h.1)
  · rename_i hfault
    rw [List.findSome?_eq_none_iff] at hfault
    split
    · rename_i id hid
      refine iff_of_false (by simp) ?_
      rintro ⟨-, hnodup, -⟩
      rw [firstRepeated_eq_none_iff.2 ⟨hnodup, by simp⟩] at hid
      cases hid
    · rename_i hids
      have hnodup := (firstRepeated_eq_none_iff.1 hids).1
      simp only [Except.ok.injEq, hnodup, true_and, eq_comm (b := set)]
      exact (and_iff_right hfault).symm

/-- Rules that are written down in another order make a rule set all the same, and it
holds the same rules. -/
theorem exists_build_of_perm {rules rules' : List Rule} {defaults : DefaultLimits} {set : RuleSet}
    (hbuild : build rules defaults = .ok set) (hperm : rules'.Perm rules) :
    ∃ set', build rules' defaults = .ok set' ∧ set'.rules.Perm set.rules := by
  obtain ⟨hfault, hnodup, rfl⟩ := build_eq_ok_iff.1 hbuild
  have hall : (rules' ++ defaults.rules).Perm (rules ++ defaults.rules) := hperm.append_right _
  have hexpanded := hall.flatMap_right Rule.expand
  refine ⟨_, build_eq_ok_iff.2 ⟨?_, ?_, rfl⟩, hexpanded⟩
  · intro r hr
    exact hfault r (hall.mem_iff.1 hr)
  · rwa [(hexpanded.map Rule.id).nodup_iff]

/-- Rule sets that hold the same rules resolve alike. -/
theorem Sound.resolve_eq_of_perm {set set' : RuleSet} (h : set.Sound) (h' : set'.Sound)
    (hperm : set'.rules.Perm set.rules) (request : Request) :
    set'.resolve request = set.resolve request := by
  apply Rule.eq_of_pairwise_askedBefore (h'.pairwise_askedBefore request)
    (h.pairwise_askedBefore request)
  intro r
  rw [mem_resolve_iff, mem_resolve_iff, hperm.mem_iff]

end RuleSet

/-! ## The law -/

/-- **Rules are asked in one order only.** Take a rule set that could be made, from any
list of rules and any default limits.

Resolving a request gives exactly the rules of the set that govern it, each once, and
each is asked before all that come behind it: the order is by priority number, then by
the closest description of the path, closer first, then by id. And from the same rules
written down in any other order a rule set can be made too, which resolves every request
to the very same list. -/
theorem resolve_in_order {rules : List Rule} {defaults : DefaultLimits} {set : RuleSet}
    (hbuild : RuleSet.build rules defaults = .ok set) :
    (∀ request,
      (∀ r, r ∈ set.resolve request ↔ r ∈ set.rules ∧ r.Governs request) ∧
      (set.resolve request).Nodup ∧
      (set.resolve request).Pairwise (Rule.AskedBefore request) ∧
      ∀ a b, Rule.AskedBefore request a b → ¬ Rule.AskedBefore request b a) ∧
    ∀ rules' : List Rule, rules'.Perm rules →
      ∃ set', RuleSet.build rules' defaults = .ok set' ∧
        ∀ request, set'.resolve request = set.resolve request := by
  have hs : set.Sound := RuleSet.sound_of_build hbuild
  refine ⟨?_, ?_⟩
  · intro request
    refine ⟨?_, ?_, hs.pairwise_askedBefore request, fun a b hab => hab.asymm⟩
    · intro r
      rw [RuleSet.mem_resolve_iff, RuleSet.isSome_relevance?_iff]
    · exact (hs.ids_resolve request).of_map Rule.id
  · intro rules' hperm
    obtain ⟨set', hbuild', hrules⟩ := RuleSet.exists_build_of_perm hbuild hperm
    refine ⟨set', hbuild', ?_⟩
    intro request
    exact hs.resolve_eq_of_perm (RuleSet.sound_of_build hbuild') hrules request

/-! ## Rules in two orders -/

namespace PrecedenceSample

/-- Two rules of the same scope and priority. -/
def api (id : String) : Rule :=
  { Rule.basic id .address 50 60 with
    endpoints := [⟨"/api/*", some [.literal "api", .wildcard]⟩], priority := 1 }

/-- A closer description. -/
def search : Rule :=
  { Rule.basic "search" .address 5 60 with
    endpoints := [⟨"/api/*", some [.literal "api", .wildcard]⟩,
      ⟨"/api/search", some [.literal "api", .literal "search"]⟩], priority := 1 }

/-- A rule with a threshold for each caller. -/
def share : Rule := { Rule.basic "share" .tenant 500 60 with limitPerCaller := some 20 }

def rules : List Rule := [api "b", api "a", search, share]

def defaults : DefaultLimits := ⟨some ⟨1000, 60, .fixedWindow⟩, none, none⟩

def request : Request :=
  ((Request.describe "GET" "/api/search" "10.0.0.1").withCaller (some "ann")).withTenant
    (some "acme")

end PrecedenceSample

open PrecedenceSample in
/-- Priority first, then closeness, then ids, however the rules are written down. -/
theorem resolve_in_order_of_search :
    ∃ set set', RuleSet.build rules defaults = .ok set ∧
      RuleSet.build rules.reverse defaults = .ok set' ∧
      (set.resolve request).map Rule.id =
        ["share", "share:caller", "search", "a", "b", "default:ip"] ∧
      (set'.resolve request).map Rule.id =
        ["share", "share:caller", "search", "a", "b", "default:ip"] := by
  have hbuild : RuleSet.build rules defaults =
      .ok ⟨(rules ++ defaults.rules).flatMap Rule.expand⟩ := by decide +kernel
  obtain ⟨-, hshuffled⟩ := resolve_in_order hbuild
  obtain ⟨set', hbuild', hsame⟩ := hshuffled rules.reverse (List.reverse_perm rules)
  have hids : ((RuleSet.mk ((rules ++ defaults.rules).flatMap Rule.expand)).resolve request).map
      Rule.id = ["share", "share:caller", "search", "a", "b", "default:ip"] := by cbv
  refine ⟨_, set', hbuild, hbuild', hids, ?_⟩
  rw [hsame request, hids]

end Admission
