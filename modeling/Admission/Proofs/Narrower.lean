/-
A narrower pattern is a closer description.

The closeness of a pattern is a score of what is written: no wildcard, then the number of
literal segments, then the length. Being narrower (`Pattern.Narrower`) is about the paths that
are matched, of which there are infinitely many. The two meet because inclusion can be tested
on few paths: changing one segment of a path shows which literals the wider pattern can have
(`Pattern.Includes.literal`), and cutting a path short or making it longer shows how long it can
be and how it can end. So the narrower pattern has the higher score (`Pattern.Narrower.below`),
and of two rules with one pattern each it is asked first (`narrower_asked_first`).
-/
import Admission.Proofs.PathLanguage
import Admission.Proofs.Contention
import Admission.Proofs.Precedence
import Admission.Proofs.ShortCircuit

set_option autoImplicit false

namespace Admission

/-! ## Paths for all lists of segments -/

/-- **A text that can be a segment of a path.** -/
structure IsSegment (text : String) : Prop where
  ne_empty : text ≠ ""
  no_slash : '/' ∉ text.toList
  no_query : '?' ∉ text.toList

theorem isSegment_of_mem_requestSegments {path text : String} (h : text ∈ requestSegments path) :
    IsSegment text := by
  rw [requestSegments, pathSegments, List.mem_filter, Text.split, List.mem_map, bne_iff_ne] at h
  obtain ⟨⟨field, hfield, rfl⟩, hempty⟩ := h
  refine ⟨hempty, ?_, ?_⟩
  · rw [String.toList_ofList]
    exact Text.sep_notMem_of_mem_splitList hfield
  · rw [String.toList_ofList]
    intro hquery
    have hbefore := Text.mem_of_mem_splitList hfield hquery
    rw [Text.before, String.toList_ofList] at hbefore
    simpa using List.mem_takeWhile_imp hbefore

/-- Every list of segments is that of some path. -/
theorem exists_requestSegments_eq {segments : List String} (h : ∀ text ∈ segments, IsSegment text) :
    ∃ path, requestSegments path = segments := by
  -- the path is the segments with slashes behind them
  induction segments with
  | nil => exact ⟨"", by decide⟩
  | cons first rest ih =>
    rw [List.forall_mem_cons] at h
    obtain ⟨path, hpath⟩ := ih h.2
    have hfirst : requestSegments first = [first] := by
      rw [requestSegments, Text.before_eq_self h.1.no_query, pathSegments, Text.split,
        Text.splitList_eq_self h.1.no_slash]
      simp [h.1.ne_empty]
    refine ⟨first ++ "/" ++ path, ?_⟩
    rw [requestSegments_append_slash, hfirst, if_neg h.1.no_query, hpath, List.singleton_append]

/-- A segment can be made another one by writing more of it. -/
theorem IsSegment.append_x {text : String} (h : IsSegment text) :
    IsSegment (text ++ "x") ∧ text ++ "x" ≠ text := by
  refine ⟨⟨?_, ?_, ?_⟩, ?_⟩
  · simp
  · simp [h.no_slash]
  · simp [h.no_query]
  · simp

/-- A description with a wildcard is looser than one with more literals, or with as many and
longer. -/
theorem Specificity.below_of_not_exact {a b : Specificity} (ha : a.exact = false)
    (h : a.literals < b.literals ∨ a.literals = b.literals ∧ a.segments < b.segments) :
    a.below b = true := by
  cases hb : b.exact with
  | true => simp [Specificity.below, ha, hb]
  | false => simpa [Specificity.below, ha, hb] using h

namespace Pattern

/-! ## Inclusion, segment by segment -/

variable {ps qs : List Segment} {path : List String}

/-- A path that is cut off where the pattern ends is described all the same. -/
theorem Describes.take (h : Describes ps path) : Describes ps (path.take ps.length) := by
  have hlength : (path.take ps.length).length = ps.length := by
    rw [List.length_take, Nat.min_eq_left h.length_le]
  refine ⟨hlength.ge, fun _ => hlength.symm, ?_⟩
  intro i text hi
  obtain ⟨hlt, -⟩ := List.getElem?_eq_some_iff.1 hi
  rw [List.getElem?_take_of_lt hlt]
  exact h.literal i text hi

/-- With a wildcard in last place a path may also go on. -/
theorem Describes.append (h : Describes ps path) (hopen : ps.getLast? = some .wildcard)
    (more : List String) : Describes ps (path ++ more) := by
  refine ⟨?_, fun hclosed => absurd hopen hclosed, ?_⟩
  · rw [List.length_append]
    exact h.length_le.trans (Nat.le_add_right _ _)
  · intro i text hi
    have htext := h.literal i text hi
    obtain ⟨hlt, -⟩ := List.getElem?_eq_some_iff.1 htext
    rwa [List.getElem?_append_left hlt]

/-- Where no literal stands, any text may stand in the path. -/
theorem Describes.set (h : Describes ps path) {i : Nat} {text other : String}
    (htext : path[i]? = some text) (hi : ps[i]? ≠ some (.literal text)) :
    Describes ps (path.set i other) := by
  refine ⟨by rw [List.length_set]; exact h.length_le,
    fun hclosed => by rw [List.length_set]; exact h.length_eq hclosed, ?_⟩
  intro j literal hj
  have hliteral := h.literal j literal hj
  by_cases hij : i = j
  · subst hij
    rw [htext, Option.some.injEq] at hliteral
    rw [← hliteral] at hj
    exact absurd hj hi
  · rwa [List.getElem?_set_ne hij]

/-- **Inclusion of segments:** what the one describes, the other describes, and there is
something that they describe. -/
structure Includes (qs ps : List Segment) : Prop where
  describes_of : ∀ path, (∀ text ∈ path, IsSegment text) → Describes ps path → Describes qs path
  exists_path : ∃ path, (∀ text ∈ path, IsSegment text) ∧ Describes ps path

namespace Includes

/-- **The wider has no literal of its own:** where it has one, the narrower has the same. -/
theorem literal (h : Includes qs ps) {i : Nat} {text : String}
    (hi : qs[i]? = some (.literal text)) : ps[i]? = some (.literal text) := by
  obtain ⟨path, hpath, hdescribes⟩ := h.exists_path
  have htext := (h.describes_of path hpath hdescribes).literal i text hi
  by_contra hother
  -- then the path may have another segment there, which the wider pattern excludes
  obtain ⟨hsegment, hne⟩ := (hpath text (List.mem_of_getElem? htext)).append_x
  have hset := h.describes_of (path.set i (text ++ "x")) ?_ (hdescribes.set htext hother)
  · have hsame := hset.literal i text hi
    obtain ⟨hlt, -⟩ := List.getElem?_eq_some_iff.1 htext
    rw [List.getElem?_set_self hlt, Option.some.injEq] at hsame
    exact hne hsame
  · intro other hmem
    rcases List.mem_or_eq_of_mem_set hmem with hmem | rfl
    · exact hpath other hmem
    · exact hsegment

/-- The wider is no longer than the narrower. -/
theorem length_le (h : Includes qs ps) : qs.length ≤ ps.length := by
  obtain ⟨path, hpath, hdescribes⟩ := h.exists_path
  have htake := h.describes_of (path.take ps.length)
    (fun text htext => hpath text (List.mem_of_mem_take htext)) hdescribes.take
  have hle := htake.length_le
  rw [List.length_take] at hle
  omega

/-- Where the wider has no wildcard in last place, they are equally long: had the narrower one
there, its paths would have different lengths. -/
theorem length_eq (h : Includes qs ps) (hclosed : qs.getLast? ≠ some .wildcard) :
    qs.length = ps.length := by
  obtain ⟨path, hpath, hdescribes⟩ := h.exists_path
  have hlength := (h.describes_of path hpath hdescribes).length_eq hclosed
  by_cases hopen : ps.getLast? = some .wildcard
  · have hmore := h.describes_of (path ++ ["x"]) ?_ (hdescribes.append hopen ["x"])
    · have hlonger := hmore.length_eq hclosed
      rw [List.length_append, List.length_singleton] at hlonger
      omega
    · intro text htext
      rcases List.mem_append.1 htext with htext | htext
      · exact hpath text htext
      · rw [List.mem_singleton.1 htext]
        exact ⟨by decide, by decide, by decide⟩
  · rw [hlength, hdescribes.length_eq hopen]

end Includes

/-! ## Inclusion and closeness -/

/-- **Wildcards in place of literals, and the end cut off,** leave as many literals at most. If
there are as many and it is as long, nothing was changed. -/
theorem countP_literal_le (hle : qs.length ≤ ps.length)
    (h : ∀ (i : Nat) text, qs[i]? = some (.literal text) → ps[i]? = some (.literal text)) :
    qs.countP (· != .wildcard) ≤ ps.countP (· != .wildcard) ∧
      (qs.countP (· != .wildcard) = ps.countP (· != .wildcard) → qs.length = ps.length →
        qs = ps) := by
  -- both parts at once, since a literal lost in one place cannot be made up for in another
  induction qs generalizing ps with
  | nil =>
    refine ⟨Nat.zero_le _, fun _ hlength => ?_⟩
    exact (List.length_eq_zero_iff.1 hlength.symm).symm
  | cons q qs ih =>
    cases ps with
    | nil => cases hle
    | cons p ps =>
      obtain ⟨hcount, heq⟩ := ih (Nat.le_of_succ_le_succ hle) fun i text hi => h (i + 1) text hi
      cases q with
      | literal text =>
        obtain rfl : p = .literal text := by simpa using h 0 text rfl
        simp only [List.countP_cons, List.length_cons]
        refine ⟨by omega, fun hcounts hlength => ?_⟩
        rw [heq (by omega) (by omega)]
      | wildcard =>
        cases p with
        | literal text =>
          simp only [List.countP_cons]
          refine ⟨by simp; omega, fun hcounts => ?_⟩
          simp at hcounts
          omega
        | wildcard =>
          simp only [List.countP_cons, List.length_cons]
          refine ⟨by omega, fun hcounts hlength => ?_⟩
          rw [heq (by omega) (by omega)]

theorem Includes.below (h : Includes qs ps) (hne : qs ≠ ps) :
    (specificityOf qs).below (specificityOf ps) = true := by
  obtain ⟨hcount, heq⟩ := countP_literal_le h.length_le fun _ _ => h.literal
  have hlength := h.length_le
  have hps : ps.countP (· != .wildcard) ≤ ps.length := List.countP_le_length
  -- if all of the wider pattern is literal, it does not end with a wildcard
  have hexact : qs.countP (· != .wildcard) = qs.length → qs.length = ps.length := by
    intro hall
    apply h.length_eq
    intro hopen
    have hliteral := List.countP_eq_length.1 hall _ (List.mem_of_getLast? hopen)
    simp at hliteral
  have hdiffer : ¬ (qs.countP (· != .wildcard) = ps.countP (· != .wildcard) ∧
      qs.length = ps.length) := fun hsame => hne (heq hsame.1 hsame.2)
  have hloose : qs.countP (· != .wildcard) ≠ qs.length := by omega
  apply Specificity.below_of_not_exact
  · exact beq_eq_false_iff_ne.2 hloose
  · dsimp only [specificityOf]
    omega

/-- Whatever has segments describes more closely than what covers everything. -/
theorem least_below (ps : List Segment) : Specificity.least.below (specificityOf ps) = true := by
  rw [Specificity.below_iff]
  refine lt_of_le_of_ne (Specificity.least_rank_le _) fun hrank => ?_
  have hsame := Specificity.rank_injective hrank
  simp only [Specificity.least, specificityOf, Specificity.mk.injEq] at hsame
  obtain ⟨hexact, hcount, hlength⟩ := hsame
  rw [← hcount, ← hlength] at hexact
  cases hexact

/-- **One pattern is strictly narrower than another:** it matches some path, whatever it matches
the other matches, and the other matches some path that it does not match. -/
structure Narrower (p q : Pattern) : Prop where
  matches_some : ∃ path, (p.matchPath path).isSome = true
  included : ∀ path, (p.matchPath path).isSome = true → (q.matchPath path).isSome = true
  strict : ∃ path, (q.matchPath path).isSome = true ∧ (p.matchPath path).isSome = false

variable {p q : Pattern}

/-- A pattern that covers everything is not narrower than any. -/
theorem Narrower.exists_segments (h : p.Narrower q) : ∃ ps, p.segments = some ps := by
  rw [← Option.isSome_iff_exists]
  by_contra hnone
  obtain ⟨path, -, hunmatched⟩ := h.strict
  have hall : (p.matchPath path).isSome = true := by
    rw [isSome_matchPath_iff]
    intro segments hsegments
    simp [hsegments] at hnone
  rw [hall] at hunmatched
  cases hunmatched

theorem Narrower.includes (h : p.Narrower q) (hp : p.segments = some ps)
    (hq : q.segments = some qs) : Includes qs ps where
  describes_of := by
    intro segments hsegments hdescribes
    obtain ⟨path, rfl⟩ := exists_requestSegments_eq hsegments
    have hmatched : (p.matchPath path).isSome = true := by
      rw [isSome_matchPath_iff]
      intro ps' hps'
      rw [hp, Option.some.injEq] at hps'
      rwa [← hps']
    exact isSome_matchPath_iff.1 (h.included path hmatched) qs hq
  exists_path := by
    obtain ⟨path, hmatched⟩ := h.matches_some
    exact ⟨requestSegments path, fun _ => isSegment_of_mem_requestSegments,
      isSome_matchPath_iff.1 hmatched ps hp⟩

/-- **The narrower pattern is the closer description.** -/
theorem Narrower.below (h : p.Narrower q) : q.specificity.below p.specificity = true := by
  obtain ⟨ps, hp⟩ := h.exists_segments
  unfold specificity
  rw [hp]
  cases hq : q.segments with
  | none => exact least_below ps
  | some qs =>
    refine (h.includes hp hq).below ?_
    rintro rfl
    -- the same segments match the same paths
    obtain ⟨path, hmatched, hunmatched⟩ := h.strict
    rw [isSome_matchPath_iff, hq, ← hp, ← isSome_matchPath_iff, hunmatched] at hmatched
    cases hmatched

theorem specificity_of_matchPath {path : String} {s : Specificity} (h : p.matchPath path = some s) :
    s = p.specificity := by
  unfold matchPath at h
  cases hsegments : p.segments with
  | none =>
    rw [hsegments, Option.some.injEq] at h
    rw [← h, specificity, hsegments]
  | some segments =>
    simp only [hsegments] at h
    split at h
    · exact (Option.some.inj h).symm
    · cases h

end Pattern

/-! ## The order of asking -/

/-- The one pattern of a rule is its closest description. -/
theorem Rule.closest_of_singleton {r : Rule} {p : Pattern} (hr : r.endpoints = [p])
    {request : Request} (hgoverns : r.Governs request) :
    r.Closest request.endpoint p.specificity := by
  have hmatched : (p.matchPath request.endpoint).isSome = true := by
    simpa [hr] using hgoverns.endpoint
  obtain ⟨s, hs⟩ := Option.isSome_iff_exists.1 hmatched
  have hspecificity := Pattern.specificity_of_matchPath hs
  subst hspecificity
  refine .inr ⟨⟨p, by simp [hr], hs⟩, ?_⟩
  intro p' hp' t ht
  rw [hr, List.mem_singleton] at hp'
  rw [hp', hs, Option.some.injEq] at ht
  rw [ht]

/-- At one priority the rule with the narrower pattern is asked before. -/
theorem Rule.askedBefore_of_narrower {request : Request} {a b : Rule} {p q : Pattern}
    (h : p.Narrower q) (ha : a.endpoints = [p]) (hb : b.endpoints = [q])
    (hpriority : a.priority = b.priority) (hga : a.Governs request) (hgb : b.Governs request) :
    Rule.AskedBefore request a b :=
  ⟨_, _, closest_of_singleton ha hga, closest_of_singleton hb hgb,
    .inr ⟨hpriority, .inl (Specificity.below_iff.1 h.below)⟩⟩

namespace Limiter

variable {l : Limiter} {request : Request} {now : Nat} {xs earlier later : List Exchange}
variable {x : Exchange} {e : Ending}

/-- **What is asked before is counted before:** when a check counts for a rule, it has counted
for every rule that is asked before it. -/
theorem Checks.exists_earlier (hs : l.rules.Sound) (h : l.Checks request now xs e) {a b : Rule}
    (hab : Rule.AskedBefore request a b) (ha : a ∈ l.rules.resolve request)
    (hb : b ∈ l.rules.resolve request) {value : String} (hxs : xs = earlier ++ x :: later)
    (hx : x.countsUnder (l.keyOf b value (now / 1000)) = true) :
    ∃ y ∈ earlier, ∃ value, a.valueOf request = some value ∧
      y.countsUnder (l.keyOf a value (now / 1000)) = true := by
  obtain ⟨ws, turns, rest, hturns, hlookups, hresolve⟩ := h.exists_turns_in_order
  rw [Exchange.countsUnder_iff] at hx
  -- the exchange is one of the turns, since lookups count nothing
  obtain ⟨before, behind, hsplit, hearlier⟩ :
      ∃ before behind, turns.map Turn.exchange = before ++ x :: behind ∧ earlier = ws ++ before := by
    rw [hxs, eq_comm, List.append_eq_append_iff] at hturns
    rcases hturns with ⟨before, hbefore, hsplit⟩ | ⟨others, hws, hsplit⟩
    · exact ⟨before, later, hsplit, hbefore⟩
    · cases others with
      | nil => exact ⟨[], later, by simpa using hsplit.symm, by simpa using hws.symm⟩
      | cons y others =>
        rw [List.cons_append, List.cons.injEq] at hsplit
        have hnot := hlookups x (by rw [hws, hsplit.1]; simp)
        rw [hnot] at hx
        cases hx.1
  obtain ⟨front, back, rfl, rfl, hback⟩ := List.map_eq_append_iff.1 hsplit
  obtain ⟨t, back, rfl, rfl, -⟩ := List.map_eq_cons_iff.1 hback
  -- its key names the rule that it counts for
  have hrule : t.rule = b := by
    obtain ⟨value', -, hkey⟩ := eq_forValue_of_forRequest t.forRequest
    have hsame := CounterKey.render_injective (t.hears.call_key.symm.trans hx.2)
    rw [hkey] at hsame
    have htold : t.rule ∈ l.rules.rules := RuleSet.mem_of_mem_resolve (by rw [hresolve]; simp)
    exact hs.eq_of_id htold (RuleSet.mem_of_mem_resolve hb) (congrArg CounterKey.ruleId hsame)
  have hsorted := hs.pairwise_askedBefore request
  rw [hresolve, List.map_append, List.map_cons, List.append_assoc, List.cons_append, hrule]
    at hsorted ha
  obtain ⟨u, hu, rfl⟩ := List.mem_map.1 (hab.mem_front hsorted ha)
  obtain ⟨value', hvalue, hkey⟩ := eq_forValue_of_forRequest u.forRequest
  refine ⟨u.exchange, ?_, value', hvalue, ?_⟩
  · rw [hearlier]
    exact List.mem_append_right _ (List.mem_map_of_mem hu)
  · have hheard := u.hears
    rw [hkey] at hheard
    exact hheard.countsUnder

end Limiter

/-! ## The law -/

/-- **Narrower patterns come first.** Take two patterns of which the first is strictly narrower:
it matches some path, the second matches all that it matches, and more.

On every path that both match, the first is told as the closer description.

So take a rule set that could be made, two of its rules that have these as their only patterns
and the same priority number, and a request that both govern. The rule with the narrower
pattern stands in front among the rules that are asked. And whatever answers the calls of a
check, if the check counts the request for the other rule, it has counted it for this one
before. -/
theorem narrower_asked_first {p q : Pattern} (h : p.Narrower q) :
    (∀ path s t, p.matchPath path = some s → q.matchPath path = some t → t.below s = true) ∧
    ∀ {rules : List Rule} {defaults : DefaultLimits} {set : RuleSet},
      RuleSet.build rules defaults = .ok set →
      ∀ (request : Request) (a b : Rule), a ∈ set.resolve request → b ∈ set.resolve request →
        a.endpoints = [p] → b.endpoints = [q] → a.priority = b.priority →
        [a, b].Sublist (set.resolve request) ∧
        ∀ (settings : LimiterSettings) (whitelist : Whitelist) (now : Nat) {σ : Type}
          (answer : σ → (call : Call) → Reply call.Answer × σ) (s : σ),
          let l : Limiter := ⟨settings, set, whitelist⟩
          ∀ earlier x later value, (l.check request now).exchanges answer s =
              earlier ++ x :: later → x.countsUnder (l.keyOf b value (now / 1000)) = true →
            ∃ y ∈ earlier, ∃ value, a.valueOf request = some value ∧
              y.countsUnder (l.keyOf a value (now / 1000)) = true := by
  refine ⟨?_, ?_⟩
  · intro path s t hs ht
    rw [Pattern.specificity_of_matchPath hs, Pattern.specificity_of_matchPath ht]
    exact h.below
  · intro rules defaults set hbuild request a b ha hb hap hbq hpriority
    have hsound : set.Sound := RuleSet.sound_of_build hbuild
    have hga := RuleSet.isSome_relevance?_iff.1 (RuleSet.mem_resolve_iff.1 ha).2
    have hgb := RuleSet.isSome_relevance?_iff.1 (RuleSet.mem_resolve_iff.1 hb).2
    have hab := Rule.askedBefore_of_narrower h hap hbq hpriority hga hgb
    refine ⟨hab.sublist (hsound.pairwise_askedBefore request) ha hb, ?_⟩
    intro settings whitelist now σ answer s l earlier x later value hsplit hx
    obtain ⟨e, hchecks, -⟩ :=
      Limiter.checks_of_goes (Interaction.goes_exchanges answer (l.check request now) s)
    exact hchecks.exists_earlier hsound hab ha hb hsplit hx

/-! ## Two patterns with wildcards -/

namespace NarrowerSample

def items : Pattern := ⟨"/api/*/items", some [.literal "api", .wildcard, .literal "items"]⟩

def api : Pattern := ⟨"/api/*", some [.literal "api", .wildcard]⟩

/-- A path of the first has the second's literal at its position, and further segments. -/
theorem items_narrower_api : items.Narrower api where
  matches_some := ⟨"/api/v1/items", by decide +kernel⟩
  included := by
    intro path hmatched
    rw [Pattern.isSome_matchPath_iff] at hmatched ⊢
    obtain ⟨hle, -, hliteral⟩ := hmatched _ rfl
    rintro _ ⟨⟩
    refine ⟨Nat.le_of_succ_le hle, fun hclosed => absurd rfl hclosed, ?_⟩
    intro i text hi
    match i, hi with
    | 0, hi => exact hliteral 0 text (by simpa using hi)
    | i + 1, hi => cases i <;> simp at hi
  strict := ⟨"/api/v1", by decide +kernel, by decide +kernel⟩

/-- By its id this rule would come second. -/
def narrow : Rule := { Rule.basic "b" .address 5 60 with endpoints := [items] }

def wide : Rule := { Rule.basic "a" .address 50 60 with endpoints := [api] }

def limiter : Limiter := ⟨⟨true, false, 50, "turnstile"⟩, ⟨[wide, narrow]⟩, .ofConfig .empty⟩

def request : Request := Request.describe "GET" "/api/v1/items?page=2" "10.0.0.1"

end NarrowerSample

open NarrowerSample in
/-- The request is counted for the narrow pattern before it is counted for the wide one. -/
theorem narrower_asked_first_of_items :
    items.Narrower api ∧ [narrow, wide].Sublist (limiter.rules.resolve request) ∧
      ∃ first second,
        (limiter.check request 60000).exchanges (Store.reply 60000) .empty = [first, second] ∧
          second.countsUnder "turnstile:a:ip:10.0.0.1:1" = true ∧
          first.countsUnder "turnstile:b:ip:10.0.0.1:1" = true := by
  have hbuild : RuleSet.build [wide, narrow] .empty = .ok limiter.rules := by decide +kernel
  have hresolve : limiter.rules.resolve request = [narrow, wide] := by cbv
  have hwide : limiter.keyOf wide "10.0.0.1" 60 = "turnstile:a:ip:10.0.0.1:1" := by decide +kernel
  have hnarrow : limiter.keyOf narrow "10.0.0.1" 60 = "turnstile:b:ip:10.0.0.1:1" := by
    decide +kernel
  have hcounts : ((limiter.check request 60000).exchanges (Store.reply 60000) .empty).map
      (Exchange.countsUnder "turnstile:a:ip:10.0.0.1:1") = [false, true] := by
    rw [Limiter.check, Limiter.evaluate, hresolve]
    decide +kernel
  obtain ⟨-, hfirst⟩ := narrower_asked_first items_narrower_api
  obtain ⟨hsublist, hcounted⟩ := hfirst hbuild request narrow wide (by simp [hresolve])
    (by simp [hresolve]) rfl rfl rfl
  obtain ⟨first, others, hasked, -, hothers⟩ := List.map_eq_cons_iff.1 hcounts
  obtain ⟨second, last, rfl, hsecond, hlast⟩ := List.map_eq_cons_iff.1 hothers
  obtain rfl := List.map_eq_nil_iff.1 hlast
  obtain ⟨y, hy, value, hvalue, hkey⟩ := hcounted limiter.settings limiter.whitelist 60000
    (Store.reply 60000) .empty [first] second [] "10.0.0.1" hasked (hwide ▸ hsecond)
  obtain rfl := List.mem_singleton.1 hy
  obtain rfl : "10.0.0.1" = value := Option.some.inj hvalue
  exact ⟨items_narrower_api, hsublist, y, second, hasked, hsecond, hnarrow ▸ hkey⟩

end Admission
