/-
A check asks no more than it must.

The store is taken as an adversary here: any machine that answers calls, in any way and
with any memory. What a check asks of it is a list of lookups in the whitelist followed
by one turn for each rule, and both lists are asked in turn (`InTurn`): in order, each
question once, and nothing after the one that settles the matter. Which turn settles it
decides what the client gets (`Limiter.Concludes`), so the answer can be read off the
replies alone (`check_asks_in_turn`).
-/
import Admission.Proofs.Verdict

set_option autoImplicit false

namespace Admission

/-! ## Asking in turn -/

/-- **Asking in turn:** some questions are asked in order, each once, until what comes
back settles the matter; after that nothing is asked. -/
inductive InTurn {α β : Type} (question : β → α) (settles : β → Prop) : List β → List α → Prop
  | nothingLeft : InTurn question settles [] []
  | settled {asked : β} {rest : List α} (h : settles asked) :
      InTurn question settles [asked] (question asked :: rest)
  | unsettled {asked : β} {others : List β} {rest : List α} (h : ¬ settles asked)
      (hrest : InTurn question settles others rest) :
      InTurn question settles (asked :: others) (question asked :: rest)

namespace InTurn

variable {α β : Type} {question : β → α} {settles : β → Prop} {asked : List β} {questions : List α}

theorem length_le (h : InTurn question settles asked questions) :
    asked.length ≤ questions.length := by
  induction h with
  | nothingLeft => exact le_rfl
  | settled => exact Nat.succ_le_succ (Nat.zero_le _)
  | unsettled _ _ ih => exact Nat.succ_le_succ ih

/-- Nothing else is asked. -/
theorem question_mem (h : InTurn question settles asked questions) {b : β} (hb : b ∈ asked) :
    question b ∈ questions := by
  induction h with
  | nothingLeft => cases hb
  | settled =>
    rw [List.mem_singleton.1 hb]
    exact List.mem_cons_self
  | unsettled _ _ ih =>
    rcases List.mem_cons.1 hb with rfl | hb
    · exact List.mem_cons_self
    · exact List.mem_cons_of_mem _ (ih hb)

/-- What is asked stands at the front of what there is to ask. -/
theorem exists_rest (h : InTurn question settles asked questions) :
    ∃ rest, questions = asked.map question ++ rest := by
  induction h with
  | nothingLeft => exact ⟨[], rfl⟩
  | settled => exact ⟨_, rfl⟩
  | unsettled _ _ ih =>
    obtain ⟨rest, hrest⟩ := ih
    exact ⟨rest, by rw [hrest]; rfl⟩

/-- Where there is something to ask, something is asked. -/
theorem ne_nil (h : InTurn question settles asked questions) (hne : questions ≠ []) :
    asked ≠ [] := by
  cases h with
  | nothingLeft => exact absurd rfl hne
  | settled | unsettled => exact List.cons_ne_nil _ _

/-- Whatever is asked before something else has not settled the matter. -/
theorem unsettled_of_split {earlier later : List β} {b : β}
    (h : InTurn question settles (earlier ++ b :: later) questions) :
    ∀ a ∈ earlier, ¬ settles a := by
  induction earlier generalizing questions with
  | nil => exact List.forall_mem_nil _
  | cons first rest ih =>
    generalize hasked : first :: rest ++ b :: later = asked at h
    cases h with
    | nothingLeft => cases hasked
    | settled =>
      rw [List.cons_append, List.cons.injEq] at hasked
      exact absurd hasked.2 (List.append_ne_nil_of_right_ne_nil _ (List.cons_ne_nil _ _))
    | unsettled hfirst hrest =>
      rw [List.cons_append, List.cons.injEq] at hasked
      obtain ⟨rfl, rfl⟩ := hasked
      exact List.forall_mem_cons.2 ⟨hfirst, ih hrest⟩

end InTurn

/-! ## Lookups in the whitelist -/

/-- Whether a lookup found its marker; `none` if it failed. -/
def Exchange.found? : Exchange → Option Bool
  | ⟨.hasMarker _, reply⟩ => reply.answer?
  | _ => none

namespace Whitelist

variable {w : Whitelist} {space : String} {budget : Nat} {request : Request} {past : Bool}
variable {xs : List Exchange}

/-- **Markers are looked up in turn:** the first that is found or fails is the last. -/
theorem inTurn_of_findMarker_goes {keys : List String} {found : Except Error Bool}
    (h : (findMarker budget keys).Goes xs found) :
    InTurn Exchange.call (fun x => x.found? ≠ some false) xs (keys.map Call.hasMarker) ∧
      (found = .ok true ↔ ∃ x ∈ xs, x.found? = some true) := by
  induction keys generalizing xs with
  | nil =>
    obtain ⟨rfl, rfl⟩ := Interaction.goes_done_iff.1 h
    exact ⟨.nothingLeft, iff_of_false (by simp) (by simp)⟩
  | cons key rest ih =>
    obtain ⟨reply, ys, rfl, hys⟩ := Interaction.goes_ask_iff.1 h
    have hfound : Exchange.found? ⟨.hasMarker key, reply⟩ = reply.answer? := rfl
    cases hreply : reply.within budget with
    | error error =>
      rw [hreply] at hys
      obtain ⟨rfl, rfl⟩ := Interaction.goes_done_iff.1 hys
      -- a reply that is no answer is neither a hit nor a miss
      have hnone : reply.answer? = none := by
        cases reply with
        | answered value => cases hreply
        | failed | silent => rfl
      rw [hnone] at hfound
      exact ⟨.settled (by rw [hfound]; exact Option.some_ne_none _ |>.symm),
        iff_of_false (by simp) (by simp [hfound])⟩
    | ok value =>
      rw [hreply] at hys
      rw [Reply.within_eq_ok_iff.1 hreply] at hfound
      cases value with
      | true =>
        obtain ⟨rfl, rfl⟩ := Interaction.goes_done_iff.1 hys
        exact ⟨.settled (by simp [hfound]), iff_of_true rfl ⟨_, List.mem_singleton_self _, hfound⟩⟩
      | false =>
        obtain ⟨hturn, hiff⟩ := ih hys
        refine ⟨.unsettled (by simp [hfound]) hturn, ?_⟩
        rw [hiff, List.exists_mem_cons_iff, hfound]
        simp

/-- **The markers of a request,** in order: of its caller, if it has one, of its tenant, if it
has one, and of its address as it is denoted. -/
theorem markerKeys_eq (space : String) (request : Request) :
    markerKeys space request =
      (request.caller.map (overrideKey space .caller)).toList ++
        (request.tenant.map (overrideKey space .tenant)).toList ++
        [overrideKey space .address (normalizeAddress request.address)] := by
  rw [markerKeys, candidates]
  cases request.caller <;> cases request.tenant <;> rfl

/-- At most three markers are looked up for a request. -/
theorem length_markerKeys_le (space : String) (request : Request) :
    (markerKeys space request).length ≤ 3 := by
  rw [markerKeys_eq]
  cases request.caller <;> cases request.tenant <;> simp

/-- No more markers than that are looked up, and none unless the whitelist is dynamic. -/
theorem length_le_of_inTurn {settles : Exchange → Prop}
    (h : InTurn Exchange.call settles xs
      (if w.dynamic then (markerKeys space request).map Call.hasMarker else [])) :
    xs.length ≤ 3 := by
  refine h.length_le.trans ?_
  split
  · rw [List.length_map]
    exact length_markerKeys_le space request
  · exact Nat.zero_le 3

/-- **What a lookup in the whitelist asks,** where the lists do not settle it. -/
theorem inTurn_of_lets_goes (hlists : w.matchesLists request = false)
    (h : (w.lets space budget request).Goes xs past) :
    InTurn Exchange.call (fun x => x.found? ≠ some false) xs
        (if w.dynamic then (markerKeys space request).map Call.hasMarker else []) ∧
      (past = true ↔ ∃ x ∈ xs, x.found? = some true) := by
  rw [lets, hlists, if_neg Bool.false_ne_true] at h
  cases hdynamic : w.dynamic with
  | false =>
    rw [hdynamic] at h
    obtain ⟨rfl, rfl⟩ := Interaction.goes_done_iff.1 h
    exact ⟨.nothingLeft, iff_of_false (by simp) (by simp)⟩
  | true =>
    rw [hdynamic] at h
    obtain ⟨ys, zs, found, rfl, hy, hz⟩ := Interaction.goes_bind_iff.1 h
    obtain ⟨hturn, hiff⟩ := inTurn_of_findMarker_goes hy
    cases found with
    | ok found =>
      obtain ⟨rfl, rfl⟩ := Interaction.goes_done_iff.1 hz
      rw [List.append_nil, ← hiff, Except.ok.injEq]
      exact ⟨hturn, Iff.rfl⟩
    | error error =>
      obtain ⟨rfl, rfl⟩ := Interaction.goes_done_iff.1 hz
      rw [List.append_nil, ← hiff]
      exact ⟨hturn, iff_of_false (by simp) (by simp)⟩

/-- Where the lists let a request past, nothing is asked. -/
theorem eq_nil_of_lets_goes (hlists : w.matchesLists request = true)
    (h : (w.lets space budget request).Goes xs past) : xs = [] ∧ past = true := by
  rw [lets, hlists, if_pos rfl] at h
  exact Interaction.goes_done_iff.1 h

end Whitelist

/-! ## Turns of rules -/

/-- A rule that governs a request finds a value to count along. -/
theorem RuleSet.isSome_valueOf_of_mem_resolve {set : RuleSet} {request : Request} {rule : Rule}
    (h : rule ∈ set.resolve request) : (rule.valueOf request).isSome = true := by
  obtain ⟨-, hrelevant⟩ := mem_resolve_iff.1 h
  rw [← Rule.applies_eq_isSome_valueOf]
  unfold relevance? at hrelevant
  split at hrelevant
  · rename_i hall
    rw [Bool.and_eq_true] at hall
    exact hall.2
  · cases hrelevant

namespace Limiter

/-- **A rule's turn:** the exchange that counts a request for the rule, with the rule's
operation and under its key for the request, and what the limiter makes of the reply. -/
structure Turn (l : Limiter) (request : Request) (now : Nat) where
  rule : Rule
  key : CounterKey
  exchange : Exchange
  heard : Except Error Observation
  forRequest : CounterKey.forRequest rule request (now / 1000) = some key
  hears : l.Hears rule key now exchange heard

variable {l : Limiter} {request : Request} {now : Nat}

/-- Whether the rule passes. -/
def Turn.passes (t : l.Turn request now) : Bool :=
  match t.heard with
  | .ok o => !o.exceeded
  | .error _ => false

/-- Whether the rule is exceeded. -/
def Turn.exceeds (t : l.Turn request now) : Bool :=
  match t.heard with
  | .ok o => o.exceeded
  | .error _ => false

/-- **What turns lead to,** given the busiest rule before them: a rule that is exceeded
denies, and if all pass one of them is shown. -/
structure Concludes (busiest : Option Measured) (turns : List (l.Turn request now))
    (e : Ending) : Prop where
  denied_iff : ∀ m, e = .denied m ↔
    ∃ t ∈ turns, t.rule = m.rule ∧ t.heard = .ok m.observation ∧ m.observation.exceeded = true
  passed : (∀ t ∈ turns, t.passes = true) → turns ≠ [] ∨ busiest.isSome →
    ∃ m, e = .passed m ∧
      (busiest = some m ∨ ∃ t ∈ turns, t.rule = m.rule ∧ t.heard = .ok m.observation)
  counted : turns ≠ [] ∨ busiest.isSome → e ≠ .nothingCounted

/-- The busier of a rule and those before it is one of them. -/
theorem eq_or_eq_of_busier {busiest : Option Measured} {m n : Measured}
    (h : busiest.elim m (·.busier m) = n) : busiest = some n ∨ m = n := by
  cases busiest with
  | none => exact .inr h
  | some earlier =>
    rw [Option.elim_some, Measured.busier] at h
    split at h
    · exact .inr h
    · exact .inl (congrArg some h)

/-- A turn that passes puts its rule among the candidates for the busiest. -/
theorem Concludes.cons {busiest : Option Measured} {t : l.Turn request now} {o : Observation}
    {turns : List (l.Turn request now)} {e : Ending} (hheard : t.heard = .ok o)
    (ho : o.exceeded = false)
    (h : Concludes (some (busiest.elim ⟨t.rule, o⟩ (·.busier ⟨t.rule, o⟩))) turns e) :
    Concludes busiest (t :: turns) e where
  denied_iff := by
    intro m
    rw [h.denied_iff, List.exists_mem_cons_iff, or_iff_right]
    rintro ⟨-, hm, hexceeded⟩
    rw [hheard, Except.ok.injEq] at hm
    rw [← hm, ho] at hexceeded
    cases hexceeded
  passed := by
    intro hall _
    obtain ⟨m, rfl, hm⟩ := h.passed (List.forall_mem_cons.1 hall).2 (.inr rfl)
    refine ⟨m, rfl, ?_⟩
    rcases hm with hm | ⟨t', ht', hm⟩
    · rcases eq_or_eq_of_busier (Option.some.inj hm) with hbusiest | rfl
      · exact .inl hbusiest
      · exact .inr ⟨t, List.mem_cons_self, rfl, hheard⟩
    · exact .inr ⟨t', List.mem_cons_of_mem _ ht', hm⟩
  counted := fun _ => h.counted (.inr rfl)

/-- **An evaluation takes the rules in turn,** each of them having a value to count
along, and ends as the turns lead to. -/
theorem Evaluates.exists_turns {busiest : Option Measured} {rules : List Rule}
    {xs : List Exchange} {e : Ending} (h : l.Evaluates request now busiest rules xs e)
    (hvalue : ∀ rule ∈ rules, (rule.valueOf request).isSome = true) :
    ∃ turns : List (l.Turn request now), xs = turns.map Turn.exchange ∧
      InTurn Turn.rule (fun t => t.passes = false) turns rules ∧ Concludes busiest turns e := by
  induction h with
  | nothing => exact ⟨[], rfl, .nothingLeft, by simp, by simp, by simp⟩
  | passed busiest => exact ⟨[], rfl, .nothingLeft, by simp, by simp, by simp⟩
  | skipped hkey =>
    -- a rule that has no value to count along was never among the rules
    have hsome := hvalue _ List.mem_cons_self
    rw [CounterKey.forRequest, Option.map_eq_none_iff] at hkey
    rw [hkey] at hsome
    cases hsome
  | @failed _ rule _ x key error hkey hx =>
    let t : l.Turn request now := ⟨rule, key, x, .error error, hkey, hx⟩
    have hpasses : t.passes = false := rfl
    exact ⟨[t], rfl, .settled hpasses, by simp [t], by simp [hpasses], by simp⟩
  | @denied _ rule _ x key o hkey hx ho =>
    let t : l.Turn request now := ⟨rule, key, x, .ok o, hkey, hx⟩
    have hpasses : t.passes = false := by simp [Turn.passes, t, ho]
    refine ⟨[t], rfl, .settled hpasses, ?_, by simp [hpasses], by simp⟩
    rintro ⟨rule', o'⟩
    simp only [Ending.denied.injEq, Measured.mk.injEq, List.mem_singleton, exists_eq_left, t,
      Except.ok.injEq]
    constructor
    · rintro ⟨rfl, rfl⟩
      exact ⟨rfl, rfl, ho⟩
    · rintro ⟨rfl, rfl, -⟩
      exact ⟨rfl, rfl⟩
  | @passes _ rule _ x _ key o _ hkey hx ho _ ih =>
    obtain ⟨turns, rfl, hturn, hconcludes⟩ := ih (List.forall_mem_cons.1 hvalue).2
    let t : l.Turn request now := ⟨rule, key, x, .ok o, hkey, hx⟩
    have hpasses : t.passes = true := by simp [Turn.passes, t, ho]
    exact ⟨t :: turns, rfl, .unsettled (by simp [hpasses]) hturn, .cons rfl ho hconcludes⟩

/-! ## Checks -/

variable {xs : List Exchange} {e : Ending}

/-- A limiter that is switched off asks nothing. -/
theorem Checks.of_disabled (h : l.Checks request now xs e) (hoff : l.settings.enabled = false) :
    xs = [] ∧ e = .disabled := by
  cases h with
  | disabled => exact ⟨rfl, rfl⟩
  | whitelisted hon | noRules hon | asked hon =>
    rw [hoff] at hon
    cases hon

/-- Nor is anything asked about a request that the lists let past. -/
theorem Checks.of_matchesLists (h : l.Checks request now xs e) (hon : l.settings.enabled = true)
    (hlists : l.whitelist.matchesLists request = true) : xs = [] ∧ e = .whitelisted := by
  cases h with
  | disabled hoff =>
    rw [hon] at hoff
    cases hoff
  | whitelisted _ hw => exact ⟨(Whitelist.eq_nil_of_lets_goes hlists hw).1, rfl⟩
  | noRules _ hw | asked _ hw =>
    have hpast := (Whitelist.eq_nil_of_lets_goes hlists hw).2
    cases hpast

/-- **A check of a request that the lists do not let past** looks the request up and then
takes the rules that govern it in turn, unless a marker was found. -/
theorem Checks.exists_turns (h : l.Checks request now xs e) (hon : l.settings.enabled = true)
    (hlists : l.whitelist.matchesLists request = false) :
    ∃ (ws : List Exchange) (turns : List (l.Turn request now)),
      xs = ws ++ turns.map Turn.exchange ∧
      InTurn Exchange.call (fun x => x.found? ≠ some false) ws
        (if l.whitelist.dynamic then
          (Whitelist.markerKeys l.settings.keySpace request).map Call.hasMarker else []) ∧
      ((∃ x ∈ ws, x.found? = some true) → turns = [] ∧ e = .whitelisted) ∧
      ((¬ ∃ x ∈ ws, x.found? = some true) →
        InTurn Turn.rule (fun t => t.passes = false) turns (l.rules.resolve request) ∧
          Concludes none turns e) := by
  cases h with
  | disabled hoff =>
    rw [hon] at hoff
    cases hoff
  | whitelisted _ hw =>
    obtain ⟨hturn, hpast⟩ := Whitelist.inTurn_of_lets_goes hlists hw
    exact ⟨_, [], (List.append_nil _).symm, hturn, fun _ => ⟨rfl, rfl⟩,
      fun hnone => absurd (hpast.1 rfl) hnone⟩
  | noRules _ hw hr =>
    obtain ⟨hturn, hpast⟩ := Whitelist.inTurn_of_lets_goes hlists hw
    refine ⟨_, [], (List.append_nil _).symm, hturn, fun hsome => absurd (hpast.2 hsome) (by decide),
      fun _ => ⟨?_, by simp, by simp, by simp⟩⟩
    rw [hr]
    exact .nothingLeft
  | asked _ hw _ he =>
    obtain ⟨hturn, hpast⟩ := Whitelist.inTurn_of_lets_goes hlists hw
    obtain ⟨turns, rfl, hturns, hconcludes⟩ :=
      he.exists_turns fun rule hr => RuleSet.isSome_valueOf_of_mem_resolve hr
    exact ⟨_, turns, rfl, hturn, fun hsome => absurd (hpast.2 hsome) (by decide),
      fun _ => ⟨hturns, hconcludes⟩⟩

/-- **A check counts for the rules in their order:** some at the front of those that govern the
request, after lookups that count nothing. -/
theorem Checks.exists_turns_in_order (h : l.Checks request now xs e) :
    ∃ (ws : List Exchange) (turns : List (l.Turn request now)) (rest : List Rule),
      xs = ws ++ turns.map Turn.exchange ∧ (∀ x ∈ ws, x.call.isIncrement = false) ∧
        l.rules.resolve request = turns.map Turn.rule ++ rest := by
  cases h with
  | disabled => exact ⟨[], [], _, rfl, List.forall_mem_nil _, rfl⟩
  | whitelisted _ hw | noRules _ hw =>
    exact ⟨_, [], _, (List.append_nil _).symm, isIncrement_of_lets_goes hw, rfl⟩
  | asked _ hw _ he =>
    obtain ⟨turns, rfl, hturns, -⟩ :=
      he.exists_turns fun rule hr => RuleSet.isSome_valueOf_of_mem_resolve hr
    obtain ⟨rest, hrest⟩ := hturns.exists_rest
    exact ⟨_, turns, rest, rfl, isIncrement_of_lets_goes hw, hrest⟩

/-- Where a rule governs a request, some rule counts it. -/
theorem Checks.ne_nothingCounted (h : l.Checks request now xs e) : e ≠ .nothingCounted := by
  cases h with
  | disabled | whitelisted | noRules => exact Ending.noConfusion
  | asked _ _ hr he =>
    obtain ⟨turns, -, hturns, hconcludes⟩ :=
      he.exists_turns fun rule hr => RuleSet.isSome_valueOf_of_mem_resolve hr
    exact hconcludes.counted (.inl (hturns.ne_nil hr))

/-- The reason of a decision names the ending. -/
theorem lookup_reason_ne (he : e ≠ .nothingCounted) {failOpen : Bool} {space : String}
    {seconds : Nat} {d : Decision} (hd : e.result failOpen space request seconds = .ok d) :
    d.details.lookup "reason" ≠ some "no_applicable_rules" := by
  cases e with
  | nothingCounted => exact absurd rfl he
  | disabled | whitelisted | noRules =>
    cases hd
    simp [Decision.pass]
  | passed m | denied m =>
    cases hd
    simp [Decision.denial, Decision.allowance, List.lookup]
  | failed rule error =>
    cases failOpen with
    | false => cases hd
    | true =>
      cases hd
      simp [Decision.pass]

/-- **Who denies:** the first rule that is exceeded, if no rule before it failed. -/
theorem denies_iff_of_concludes {turns : List (l.Turn request now)} (hs : l.rules.Sound)
    (hturns : InTurn Turn.rule (fun t => t.passes = false) turns (l.rules.resolve request))
    (h : Concludes none turns e) {rule : Rule} (hr : rule ∈ l.rules.rules) :
    (∃ m, e = .denied m ∧ m.rule.id = rule.id) ↔
      ∃ earlier t later, turns = earlier ++ t :: later ∧ t.rule = rule ∧ t.exceeds = true ∧
        ∀ before ∈ earlier, before.passes = true := by
  constructor
  · rintro ⟨m, rfl, hid⟩
    obtain ⟨t, ht, hrule, hheard, hexceeded⟩ := (h.denied_iff m).1 rfl
    have hgoverns : t.rule ∈ l.rules.rules :=
      RuleSet.mem_of_mem_resolve (hturns.question_mem ht)
    have hsame : t.rule = rule := hs.eq_of_id hgoverns hr (by rw [hrule, hid])
    obtain ⟨earlier, later, rfl⟩ := List.append_of_mem ht
    refine ⟨earlier, t, later, rfl, hsame, by rw [Turn.exceeds, hheard]; exact hexceeded, ?_⟩
    intro before hbefore
    have hpasses := hturns.unsettled_of_split before hbefore
    simpa using hpasses
  · rintro ⟨earlier, t, later, rfl, rfl, hexceeds, -⟩
    unfold Turn.exceeds at hexceeds
    split at hexceeds
    · rename_i o hheard
      exact ⟨⟨t.rule, o⟩, (h.denied_iff _).2
        ⟨t, List.mem_append_cons_self, rfl, hheard, hexceeds⟩, rfl⟩
    · cases hexceeds

end Limiter

/-! ## What the client gets -/

/-- **An allowance that no rule had a part in,** with its reason. -/
structure Decision.Unruled (dec : Decision) (reason : String) : Prop where
  allowed : dec.allowed = true
  applied : dec.appliedRule = none
  retryAfter : dec.retryAfterSeconds = none
  message : dec.message = none
  reason : dec.details.lookup "reason" = some reason

/-- A pass is such an allowance, whatever else it gives as details. -/
theorem Decision.unruled_pass {details : List (String × String)} {reason : String}
    (h : details.lookup "reason" = some reason) (seconds : Nat) :
    (pass details seconds).Unruled reason :=
  ⟨rfl, rfl, rfl, rfl, h⟩

namespace Limiter

variable {l : Limiter} {request : Request} {now : Nat}

/-- **An allowance that shows a turn:** the numbers are those of the turn's rule and of what was
heard of it, and the key is the one that was asked for. -/
structure Turn.ShownBy (t : l.Turn request now) (o : Observation) (dec : Decision) : Prop where
  allowed : dec.allowed = true
  applied : dec.appliedRule = some t.rule.id
  count : dec.currentCount = o.count
  limit : dec.limit = t.rule.limit
  resetAfter : dec.resetAfterSeconds = ceilSeconds o.resetAfter
  resetAt : dec.resetAt = now / 1000 + ceilSeconds o.resetAfter
  retryAfter : dec.retryAfterSeconds = none
  message : dec.message = none
  key : dec.details.lookup "key" = some t.exchange.call.key
  reason : dec.details.lookup "reason" = some "most_utilized"

/-- What was heard at a turn is about the counter that the turn asked for, so an allowance with
its numbers shows the turn. -/
theorem Turn.shownBy_allowance (t : l.Turn request now) {o : Observation} (h : t.heard = .ok o) :
    t.ShownBy o (.allowance l.settings.keySpace ⟨t.rule, o⟩ "most_utilized" (now / 1000)) where
  allowed := rfl
  applied := rfl
  count := rfl
  limit := rfl
  resetAfter := rfl
  resetAt := rfl
  retryAfter := rfl
  message := rfl
  key := by
    have hkey : o.key = t.key := (h ▸ t.hears).observation_key
    rw [t.hears.call_key, ← hkey]
    rfl
  reason := rfl

end Limiter

/-! ## The law -/

/-- **A check asks in turn, and the replies decide.** Take a limiter with rules that could
be made, a request, a time, and whatever answers the calls.

If limiting is switched off or the lists let the request past, nothing is asked. If not,
the markers of the request are looked up in turn, of its caller, its tenant and its address,
three at most and none unless the whitelist is dynamic; a marker that is found lets the
request past. If none is, the rules that govern the request are asked in turn, each by one
call that counts the request under the rule's key, up to the first that is exceeded or
fails, and nothing else is asked.

A rule denies the request if and only if it is exceeded and every rule before it passed.
If all pass and there are any, the request is allowed with the numbers of one of them as
it was observed. Whoever is let past without a rule is told the reason, and of no rule. It
never happens that none of the rules had a value to count along. -/
theorem check_asks_in_turn {rules : List Rule} {defaults : DefaultLimits} {set : RuleSet}
    (hbuild : RuleSet.build rules defaults = .ok set) (settings : LimiterSettings)
    (whitelist : Whitelist) (request : Request) (now : Nat) {σ : Type}
    (answer : σ → (call : Call) → Reply call.Answer × σ) (s : σ) :
    let l : Limiter := ⟨settings, set, whitelist⟩
    let asked := (l.check request now).exchanges answer s
    let told := ((l.check request now).run answer s).1
    let pass (reason : String) : Except Error Decision :=
      .ok (.pass [("reason", reason)] (now / 1000))
    let letPast (reason : String) : Prop := ∃ d, told.1 = .ok d ∧ d.Unruled reason
    (settings.enabled = false →
      asked = [] ∧ told.1 = pass "disabled" ∧ letPast "disabled") ∧
    (settings.enabled = true → whitelist.matchesLists request = true →
      asked = [] ∧ told.1 = pass "whitelisted" ∧ letPast "whitelisted") ∧
    (settings.enabled = true → whitelist.matchesLists request = false →
      ∃ (lookups : List Exchange) (turns : List (l.Turn request now)),
        asked = lookups ++ turns.map Limiter.Turn.exchange ∧
        InTurn Exchange.call (fun x => x.found? ≠ some false) lookups
          (if whitelist.dynamic then
            (Whitelist.markerKeys settings.keySpace request).map Call.hasMarker else []) ∧
        Whitelist.markerKeys settings.keySpace request =
          (request.caller.map (overrideKey settings.keySpace .caller)).toList ++
            (request.tenant.map (overrideKey settings.keySpace .tenant)).toList ++
            [overrideKey settings.keySpace .address (normalizeAddress request.address)] ∧
        lookups.length ≤ 3 ∧
        ((∃ x ∈ lookups, x.found? = some true) →
          turns = [] ∧ told.1 = pass "whitelisted" ∧ letPast "whitelisted") ∧
        ((¬ ∃ x ∈ lookups, x.found? = some true) →
          InTurn Limiter.Turn.rule (fun t => t.passes = false) turns (set.resolve request) ∧
          (∀ rule ∈ set.rules, (Report.decision told.1 told.2).deniesBy rule.id = true ↔
            ∃ earlier t later, turns = earlier ++ t :: later ∧ t.rule = rule ∧
              t.exceeds = true ∧ ∀ before ∈ earlier, before.passes = true) ∧
          (set.resolve request ≠ [] → (∀ t ∈ turns, t.passes = true) →
            ∃ t ∈ turns, ∃ o, t.heard = .ok o ∧ told.1 =
              .ok (.allowance settings.keySpace ⟨t.rule, o⟩ "most_utilized" (now / 1000)) ∧
              ∃ d, told.1 = .ok d ∧ t.ShownBy o d))) ∧
    ∀ d, told.1 = .ok d → d.details.lookup "reason" ≠ some "no_applicable_rules" := by
  have hs : set.Sound := RuleSet.sound_of_build hbuild
  intro l asked told pass letPast
  obtain ⟨e, hchecks, htold⟩ :=
    Limiter.checks_of_goes (Interaction.goes_exchanges answer (l.check request now) s)
  change l.Checks request now asked e at hchecks
  change told.1 = e.result settings.failOpen settings.keySpace request (now / 1000) at htold
  have hpast : ∀ reason, told.1 = pass reason → letPast reason :=
    fun reason h => ⟨_, h, Decision.unruled_pass rfl _⟩
  refine ⟨?_, ?_, ?_, ?_⟩
  · intro hoff
    obtain ⟨hnone, rfl⟩ := hchecks.of_disabled hoff
    exact ⟨hnone, htold, hpast _ htold⟩
  · intro hon hlists
    obtain ⟨hnone, rfl⟩ := hchecks.of_matchesLists hon hlists
    exact ⟨hnone, htold, hpast _ htold⟩
  · intro hon hlists
    obtain ⟨lookups, turns, hasked, hlookups, hfound, hnone⟩ := hchecks.exists_turns hon hlists
    refine ⟨lookups, turns, hasked, hlookups, Whitelist.markerKeys_eq _ _,
      Whitelist.length_le_of_inTurn hlookups, ?_, ?_⟩
    · intro hsome
      obtain ⟨hturns, rfl⟩ := hfound hsome
      exact ⟨hturns, htold, hpast _ htold⟩
    · intro hnotFound
      obtain ⟨hturns, hconcludes⟩ := hnone hnotFound
      refine ⟨hturns, ?_, ?_⟩
      · intro rule hr
        rw [htold, Ending.deniesBy_iff]
        exact Limiter.denies_iff_of_concludes hs hturns hconcludes hr
      · intro hgoverned hall
        obtain ⟨m, rfl, hm⟩ := hconcludes.passed hall (.inl (hturns.ne_nil hgoverned))
        obtain ⟨t, ht, hrule, hheard⟩ := hm.resolve_left (Option.some_ne_none m).symm
        obtain ⟨_, o⟩ := m
        subst hrule
        exact ⟨t, ht, o, hheard, htold, _, htold, t.shownBy_allowance hheard⟩
  · intro d hd
    rw [htold] at hd
    exact Limiter.lookup_reason_ne hchecks.ne_nothingCounted hd

/-! ## A store that fails and answers -/

namespace ShortCircuitSample

/-- A limit on the tenant's share of any minute. -/
def share : Rule := { Rule.basic "share" .tenant 3 60 with algorithm := .slidingWindow }

/-- Three rules, asked in this order. -/
def rules : List Rule :=
  [Rule.basic "burst" .address 5 60, share, Rule.basic "total" .endpoint 9 60]

/-- A limiter that looks for overrides. -/
def limiter : Limiter := ⟨⟨true, false, 50, "turnstile"⟩, ⟨rules⟩, ⟨[], [], [], true⟩⟩

def request : Request :=
  ((Request.describe "PUT" "/upload" "10.0.0.1").withCaller (some "ann")).withTenant (some "acme")

/-- A store that cannot look markers up, has room in every fixed window, and none in a
sliding one. -/
def answer : Unit → (call : Call) → Reply call.Answer × Unit
  | _, .hasMarker _ => (.failed (.storeUnavailable "down"), ())
  | _, .incrementFixed .. => (.answered ⟨4, 1000⟩, ())
  | _, .incrementSliding .. => (.answered ⟨3, true, 2000⟩, ())
  | _, .read _ | _, .reset _ | _, .setMarker .. => (.silent, ())

end ShortCircuitSample

open ShortCircuitSample in
/-- The first lookup fails, so the other two are not made; the first rule passes, and the
second denies, so the third is not asked. -/
theorem check_asks_in_turn_of_upload :
    let asked := (limiter.check request 60000).exchanges answer ()
    asked.map Exchange.call =
        [.hasMarker "turnstile:whitelist:caller:ann",
          .incrementFixed "turnstile:burst:ip:10.0.0.1:1" 60000,
          .incrementSliding "turnstile:share:tenant:acme:sw" 60000 3 60000] ∧
      ∃ (lookups : List Exchange) (earlier later : List (limiter.Turn request 60000))
        (t : limiter.Turn request 60000),
        asked = lookups ++ (earlier ++ t :: later).map Limiter.Turn.exchange ∧
          lookups.length ≤ 3 ∧ t.rule = share ∧ t.exceeds = true ∧
          ∀ before ∈ earlier, before.passes = true := by
  intro asked
  have hbuild : RuleSet.build rules .empty = .ok ⟨rules⟩ := rfl
  have hfound : asked.map Exchange.found? = [none, none, none] := by cbv
  obtain ⟨-, -, hasks, -⟩ := check_asks_in_turn hbuild limiter.settings limiter.whitelist request
    60000 answer ()
  obtain ⟨lookups, turns, hasked, -, -, hthree, -, hturns⟩ := hasks rfl (by cbv)
  have hnone : ¬ ∃ x ∈ lookups, x.found? = some true := by
    rintro ⟨x, hx, hxfound⟩
    have hmem : x.found? ∈ asked.map Exchange.found? := by
      rw [show asked = _ from hasked]
      exact List.mem_map_of_mem (List.mem_append_left _ hx)
    rw [hfound, hxfound] at hmem
    simp at hmem
  obtain ⟨-, hdenies, -⟩ := hturns hnone
  obtain ⟨earlier, t, later, rfl, hrule, hexceeds, hearlier⟩ :=
    (hdenies share (by decide)).1 (by cbv)
  exact ⟨by cbv, lookups, earlier, later, t, hasked, hthree, hrule, hexceeds, hearlier⟩

end Admission
