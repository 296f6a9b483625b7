/-
Checks with a store that fails.

Any call of a check may fail, with any error or by staying silent, and which ones do is
not for the limiter to know. A lookup in the whitelist that fails leaves the matter to the
rules. A call for a rule that fails ends the check: with an allowance that names the rule,
if the limiter fails open, and if not with an error that blames the store. What failed has
had no effect, so the store is changed by the calls that were answered and by nothing else
(`check_despite_failures`).
-/
import Admission.Proofs.ShortCircuit

set_option autoImplicit false

namespace Admission

/-! ## Calls that fail -/

/-- **The error of a call that was not answered;** silence is a timeout. -/
def Exchange.failure? (budget : Nat) (x : Exchange) : Option Error :=
  match x.reply with
  | .answered _ => none
  | .failed error => some error
  | .silent => some (.storeTimeout budget)

theorem Reply.within_map_eq_error_iff {α β : Type} {budget : Nat} {r : Reply α} {f : α → β}
    {error : Error} : (r.within budget).map f = .error error ↔ r.within budget = .error error := by
  cases r.within budget <;> simp [Except.map]

theorem Exchange.failure?_eq_some_iff {budget : Nat} {x : Exchange} {error : Error} :
    x.failure? budget = some error ↔ x.reply.within budget = .error error := by
  unfold failure? Reply.within
  cases x.reply <;> simp

/-- A call that has an error was not answered. -/
theorem Exchange.not_isAnswered_of_failure? {budget : Nat} {x : Exchange} {error : Error}
    (h : x.failure? budget = some error) : ¬ x.IsAnswered := by
  rw [failure?_eq_some_iff] at h
  rw [IsAnswered, Option.isSome_iff_exists]
  rintro ⟨answer, hanswer⟩
  rw [Reply.within_eq_ok_iff.2 hanswer] at h
  cases h

/-- **What exchanges do to a store:** a call that was answered has its effect, and one that
was not has none. -/
def Exchange.effects (now : Nat) (s : Store) (xs : List Exchange) : Store :=
  xs.foldl (fun s x => if x.IsAnswered then (s.answer now x.call).2 else s) s

/-- Looking for markers has no effect. -/
theorem Exchange.effects_of_looks {now : Nat} {s : Store} {xs : List Exchange}
    (h : ∀ x ∈ xs, ∃ key, x.call = .hasMarker key) : effects now s xs = s := by
  unfold effects
  induction xs with
  | nil => rfl
  | cons x rest ih =>
    rw [List.forall_mem_cons] at h
    obtain ⟨⟨key, hcall⟩, hrest⟩ := h
    rw [List.foldl_cons, hcall]
    simpa [Store.answer] using ih hrest

/-- **A store is changed by the calls that were answered,** whatever outages there are. -/
theorem Backend.store_run_answerAmid {α : Type} {d : Disturbance} (hd : d.OnlyOutages)
    (m : Interaction α) (b : Backend) :
    (m.run (answerAmid d) b).2.store =
      Exchange.effects b.clock.now b.store (m.exchanges (answerAmid d) b) := by
  induction m generalizing b with
  | done value => rfl
  | ask call next ih =>
    obtain ⟨hclock, hreply⟩ := answerAmid_cases hd b call
    have hrest := ih (b.answerAmid d call).1 (b.answerAmid d call).2
    rw [hclock] at hrest
    rw [Interaction.run_ask, hrest, Interaction.exchanges_ask, Exchange.effects, Exchange.effects,
      List.foldl_cons]
    congr 1
    rcases hreply with ⟨hreply, hstore⟩ | ⟨hreply, hstore⟩
    · rw [hstore, if_pos (by simp [Exchange.IsAnswered, hreply, Reply.answer?])]
    · rw [hstore, if_neg (by simp [Exchange.IsAnswered, hreply])]

/-- Where one thing settles the matter, nothing else does. -/
theorem InTurn.eq_of_settles {α β : Type} {question : β → α} {settles : β → Prop} {asked : List β}
    {questions : List α} (h : InTurn question settles asked questions) {a b : β} (ha : a ∈ asked)
    (hb : b ∈ asked) (hsa : settles a) (hsb : settles b) : a = b := by
  induction h with
  | nothingLeft => cases ha
  | settled => rw [List.mem_singleton.1 ha, List.mem_singleton.1 hb]
  | @unsettled first others rest hfirst _ ih =>
    have hlater : ∀ c ∈ first :: others, settles c → c ∈ others := by
      intro c hc hsc
      rcases List.mem_cons.1 hc with rfl | hc
      · exact absurd hsc hfirst
      · exact hc
    exact ih (hlater a ha hsa) (hlater b hb hsb)

/-! ## Lookups that fail -/

/-- **A lookup that fails lets nobody past.** -/
theorem Whitelist.eq_false_of_lets_goes {w : Whitelist} {space : String} {budget : Nat}
    {request : Request} {xs : List Exchange} {past : Bool}
    (h : (w.lets space budget request).Goes xs past) {x : Exchange} (hx : x ∈ xs)
    (hfails : ¬ x.IsAnswered) : past = false := by
  have hlists : w.matchesLists request = false := by
    by_contra hlists
    rw [Bool.not_eq_false] at hlists
    rw [(eq_nil_of_lets_goes hlists h).1] at hx
    cases hx
  obtain ⟨hturn, hpast⟩ := inTurn_of_lets_goes hlists h
  have hnone : x.found? = none := by
    unfold Exchange.found?
    split
    · exact Option.not_isSome_iff_eq_none.1 hfails
    · rfl
  rw [Bool.eq_false_iff, ne_eq, hpast]
  rintro ⟨y, hy, hfound⟩
  -- the search ends where a marker is found, and it also ended where the lookup failed
  have hsame : x = y := hturn.eq_of_settles hx hy (by simp [hnone]) (by simp [hfound])
  rw [hsame, hfound] at hnone
  cases hnone

namespace Limiter

variable {l : Limiter} {request : Request} {now : Nat} {xs : List Exchange} {e : Ending}

/-- The limiter without a whitelist. -/
def withoutWhitelist (l : Limiter) : Limiter := { l with whitelist := .ofConfig .empty }

theorem askRules_withoutWhitelist (l : Limiter) (request : Request) (now : Nat)
    (busiest : Option Measured) (rules : List Rule) :
    l.withoutWhitelist.askRules request now busiest rules =
      l.askRules request now busiest rules := by
  have hobserve : ∀ rule key, l.withoutWhitelist.observe rule key now = l.observe rule key now :=
    fun _ _ => rfl
  induction rules generalizing busiest with
  | nil => cases busiest <;> rfl
  | cons rule rest ih => simp only [askRules, hobserve, ih]

theorem matchesLists_withoutWhitelist (l : Limiter) (request : Request) :
    l.withoutWhitelist.whitelist.matchesLists request = false := by
  simp [withoutWhitelist, Whitelist.ofConfig, WhitelistConfig.empty, Whitelist.matchesLists]

/-- Looking a request up in the whitelist of a limiter. -/
def lookUp (l : Limiter) (request : Request) : Interaction Bool :=
  l.whitelist.lets l.settings.keySpace l.settings.storeTimeout request

/-- Looking a request up asks for markers. -/
theorem looks_of_lookUp_goes {past : Bool} (h : (l.lookUp request).Goes xs past) :
    ∀ x ∈ xs, ∃ key, x.call = .hasMarker key := by
  intro x hx
  obtain ⟨dimension, value, hcall⟩ := calls_of_lets_goes h x hx
  exact ⟨_, hcall⟩

/-- Where there is no whitelist, nothing is asked and nobody is let past. -/
theorem lookUp_withoutWhitelist (l : Limiter) (request : Request) :
    l.withoutWhitelist.lookUp request = .done false := by
  rw [lookUp, Whitelist.lets, matchesLists_withoutWhitelist, if_neg Bool.false_ne_true]
  rfl

/-- The limiter without a whitelist does what is left of a check once the whitelist has not
let the request past. -/
theorem check_eq_bind_lookUp (hon : l.settings.enabled = true) :
    l.check request now =
      (l.lookUp request).bind fun past =>
        if past then .done (Ending.whitelisted.result l.settings.failOpen l.settings.keySpace
          request (now / 1000), Ending.whitelisted.metrics l.settings.failOpen)
        else l.withoutWhitelist.check request now := by
  have hon' : l.withoutWhitelist.settings.enabled = true := hon
  have hlookUp := lookUp_withoutWhitelist l request
  rw [lookUp] at hlookUp
  rw [check, evaluate, hon, if_neg (by decide), Interaction.bind_assoc]
  congr 1
  funext past
  cases past with
  | true => rfl
  | false =>
    rw [check, evaluate, hon', if_neg (by decide), hlookUp]
    simp only [askRules_withoutWhitelist]
    rfl

/-! ## Turns that fail -/

theorem Turn.isIncrement (t : l.Turn request now) : t.exchange.call.isIncrement = true := by
  obtain ⟨rule, key, x, heard, hkey, hx⟩ := t
  cases hx <;> rfl

/-- The error of a rule's call, if it failed. -/
def Turn.failure? (t : l.Turn request now) : Option Error :=
  t.exchange.failure? l.settings.storeTimeout

theorem Turn.exceeds_eq_false_of_passes (t : l.Turn request now) (h : t.passes = true) :
    t.exceeds = false := by
  unfold passes at h
  unfold exceeds
  cases hheard : t.heard with
  | ok o => simpa [hheard] using h
  | error error => rfl

theorem Hears.eq_error_iff {rule : Rule} {key : CounterKey} {x : Exchange}
    {heard : Except Error Observation} (h : l.Hears rule key now x heard) {error : Error} :
    heard = .error error ↔ x.failure? l.settings.storeTimeout = some error := by
  rw [Exchange.failure?_eq_some_iff]
  cases h <;> exact Reply.within_map_eq_error_iff

/-- A call is made for one rule. -/
theorem Turn.ruleId_eq (t : l.Turn request now) {rule : Rule} {key : CounterKey}
    {heard : Except Error Observation}
    (hkey : CounterKey.forRequest rule request (now / 1000) = some key)
    (h : l.Hears rule key now t.exchange heard) : t.rule.id = rule.id := by
  have hsame : key = t.key := CounterKey.render_injective (h.call_key.symm.trans t.hears.call_key)
  obtain ⟨value, -, rfl⟩ := eq_forValue_of_forRequest hkey
  obtain ⟨value', -, hvalue⟩ := eq_forValue_of_forRequest t.forRequest
  rw [hvalue] at hsame
  exact (congrArg CounterKey.ruleId hsame).symm

/-- **A call for a rule that fails ends the evaluation.** -/
theorem Evaluates.eq_failed {busiest : Option Measured} {rules : List Rule}
    (h : l.Evaluates request now busiest rules xs e) {x : Exchange} (hx : x ∈ xs) {error : Error}
    (hfails : x.failure? l.settings.storeTimeout = some error) :
    ∃ rule key, CounterKey.forRequest rule request (now / 1000) = some key ∧
      l.Hears rule key now x (.error error) ∧ e = .failed rule error := by
  induction h with
  | nothing | passed => cases hx
  | skipped _ _ ih => exact ih hx
  | failed hkey hy =>
    rw [List.mem_singleton] at hx
    subst hx
    obtain rfl := Except.error.inj (hy.eq_error_iff.2 hfails)
    exact ⟨_, _, hkey, hy, rfl⟩
  | denied _ hy _ =>
    rw [List.mem_singleton] at hx
    subst hx
    cases hy.eq_error_iff.2 hfails
  | passes _ hy _ _ ih =>
    rcases List.mem_cons.1 hx with rfl | hx
    · cases hy.eq_error_iff.2 hfails
    · exact ih hx

theorem Evaluates.exists_failure {busiest : Option Measured} {rules : List Rule} {rule : Rule}
    {error : Error} (h : l.Evaluates request now busiest rules xs (.failed rule error)) :
    ∃ x ∈ xs, x.failure? l.settings.storeTimeout = some error := by
  generalize he : Ending.failed rule error = e at h
  induction h with
  | nothing | passed | denied => cases he
  | skipped _ _ ih => exact ih he
  | failed _ hx =>
    cases he
    exact ⟨_, List.mem_cons_self, hx.eq_error_iff.1 rfl⟩
  | passes _ _ _ _ ih =>
    obtain ⟨x, hx, hfails⟩ := ih he
    exact ⟨x, List.mem_cons_of_mem _ hx, hfails⟩

/-- **How a check goes:** lookups and then turns, with what failures there are among the
turns and at the end. -/
theorem Checks.exists_turns_despite (h : l.Checks request now xs e) :
    ∃ (ws : List Exchange) (turns : List (l.Turn request now)),
      xs = ws ++ turns.map Turn.exchange ∧
      (∀ x ∈ ws, ∃ key, x.call = .hasMarker key) ∧
      (l.settings.enabled = true → l.whitelist.matchesLists request = false →
        (¬ ∃ x ∈ ws, x.found? = some true) →
          InTurn Turn.rule (fun t => t.passes = false) turns (l.rules.resolve request)) ∧
      (∀ t ∈ turns, ∀ error, t.failure? = some error →
        ∃ rule, rule.id = t.rule.id ∧ e = .failed rule error) ∧
      ∀ rule error, e = .failed rule error →
        (∃ t ∈ turns, t.failure? = some error) ∧
          InTurn Turn.rule (fun t => t.passes = false) turns (l.rules.resolve request) := by
  cases h with
  | disabled hoff => exact ⟨[], [], rfl, by simp, by simp [hoff], by simp, by simp⟩
  | whitelisted _ hw =>
    refine ⟨_, [], (List.append_nil _).symm, looks_of_lookUp_goes hw, ?_, by simp, by simp⟩
    intro _ hlists hnone
    exact absurd ((Whitelist.inTurn_of_lets_goes hlists hw).2.1 rfl) hnone
  | noRules _ hw hr =>
    refine ⟨_, [], (List.append_nil _).symm, looks_of_lookUp_goes hw, ?_, by simp, by simp⟩
    intro _ _ _
    rw [hr]
    exact .nothingLeft
  | asked _ hw _ he =>
    obtain ⟨turns, rfl, hturns, -⟩ :=
      he.exists_turns fun rule hr => RuleSet.isSome_valueOf_of_mem_resolve hr
    refine ⟨_, turns, rfl, looks_of_lookUp_goes hw, fun _ _ _ => hturns, ?_, ?_⟩
    · intro t ht error hfails
      obtain ⟨rule, key, hkey, hheard, rfl⟩ := he.eq_failed (List.mem_map_of_mem ht) hfails
      exact ⟨rule, (t.ruleId_eq hkey hheard).symm, rfl⟩
    · rintro rule error rfl
      obtain ⟨x, hx, hfails⟩ := he.exists_failure
      obtain ⟨t, ht, rfl⟩ := List.mem_map.1 hx
      exact ⟨⟨t, ht, hfails⟩, hturns⟩

/-- **Where a check ends with a failure,** a call that counts the request was not answered. -/
theorem Checks.exists_unanswered {rule : Rule} {error : Error}
    (h : l.Checks request now xs (.failed rule error)) :
    ∃ x ∈ xs, x.call.isIncrement = true ∧ ¬ x.IsAnswered := by
  obtain ⟨lookups, turns, rfl, -, -, -, hfailed⟩ := h.exists_turns_despite
  obtain ⟨⟨t, ht, hfails⟩, -⟩ := hfailed rule error rfl
  exact ⟨t.exchange, List.mem_append_right _ (List.mem_map_of_mem ht), t.isIncrement,
    Exchange.not_isAnswered_of_failure? hfails⟩

end Limiter

/-! ## What the client gets -/

theorem Error.isStoreFailure_asStoreFailure (e : Error) :
    e.asStoreFailure.isStoreFailure = true := by
  unfold asStoreFailure
  split
  · assumption
  · rfl

/-- Only a failure can end in an error, and not if the limiter fails open. -/
theorem Ending.result_eq_error_iff {e : Ending} {failOpen : Bool} {space : String}
    {request : Request} {seconds : Nat} {error : Error} :
    e.result failOpen space request seconds = .error error ↔
      failOpen = false ∧ ∃ rule cause, e = .failed rule cause ∧ error = cause.asStoreFailure := by
  cases e with
  | disabled | whitelisted | noRules | nothingCounted | passed | denied => simp [result]
  | failed rule cause => cases failOpen <;> simp [result, eq_comm]

namespace Limiter

variable {l : Limiter} {request : Request} {now : Nat} {d : Disturbance}

/-- Without a whitelist, every call of a check counts the request. -/
theorem isIncrement_of_checks_withoutWhitelist {xs : List Exchange} {e : Ending}
    (h : l.withoutWhitelist.Checks request now xs e) : ∀ x ∈ xs, x.call.isIncrement = true := by
  have hlists := matchesLists_withoutWhitelist l request
  by_cases hon : l.withoutWhitelist.settings.enabled = true
  · obtain ⟨ws, turns, rfl, hws, -, -⟩ := h.exists_turns hon hlists
    have hnil : ws = [] := by
      rw [show l.withoutWhitelist.whitelist.dynamic = false from rfl] at hws
      exact List.length_eq_zero_iff.1 (Nat.le_zero.1 hws.length_le)
    rw [hnil, List.nil_append, List.forall_mem_map]
    exact fun t _ => t.isIncrement
  · rw [(h.of_disabled (Bool.not_eq_true _ |>.mp hon)).1]
    exact List.forall_mem_nil _

variable {σ : Type} {answer : σ → (call : Call) → Reply call.Answer × σ}

/-- Whatever answers, a marker that a check looks for is looked for in the whitelist. -/
theorem mem_exchanges_lookUp (hon : l.settings.enabled = true) {m : σ} {key : String} {x : Exchange}
    (hx : x ∈ (l.check request now).exchanges answer m) (hcall : x.call = .hasMarker key) :
    x ∈ (l.lookUp request).exchanges answer m := by
  rw [check_eq_bind_lookUp hon, Interaction.exchanges_bind, List.mem_append] at hx
  rcases hx with hx | hx
  · exact hx
  -- what comes after the lookups counts the request
  · split at hx
    · cases hx
    · obtain ⟨e, hchecks, -⟩ := checks_of_goes (Interaction.goes_exchanges answer _ _)
      have hcounts := isIncrement_of_checks_withoutWhitelist hchecks x hx
      rw [hcall] at hcounts
      cases hcounts

/-- **A lookup that fails leaves the matter to the rules,** and the store as it is. -/
theorem run_check_of_lookup_fails (hd : d.OnlyOutages) {b : Backend} {key : String} {x : Exchange}
    (hx : x ∈ (l.check request now).exchanges (Backend.answerAmid d) b)
    (hcall : x.call = .hasMarker key) (hfails : ¬ x.IsAnswered) :
    let left := ((l.lookUp request).run (Backend.answerAmid d) b).2
    left.store = b.store ∧ left.clock = b.clock ∧
      (l.check request now).run (Backend.answerAmid d) b =
        (l.withoutWhitelist.check request now).run (Backend.answerAmid d) left := by
  intro left
  have hon : l.settings.enabled = true := by
    by_contra hoff
    rw [Bool.not_eq_true] at hoff
    simp [check, evaluate, hoff, Interaction.exchanges, Interaction.bind] at hx
  have hlooked := mem_exchanges_lookUp hon hx hcall
  have hgoes := Interaction.goes_exchanges (Backend.answerAmid d) (l.lookUp request) b
  have hpast : ((l.lookUp request).run (Backend.answerAmid d) b).1 = false :=
    Whitelist.eq_false_of_lets_goes hgoes hlooked hfails
  refine ⟨?_, ?_, ?_⟩
  · exact (Backend.store_run_answerAmid hd _ b).trans (Exchange.effects_of_looks
      (looks_of_lookUp_goes hgoes))
  · exact Backend.clock_run_answerAmid hd _ _
  · rw [check_eq_bind_lookUp hon, Interaction.run_bind, hpast]
    rfl

end Limiter

/-- **What a failure leads to.** Take a limiter, a request, a store with a clock, and any
schedule of outages: each call may be answered, fail with any error, or stay silent.

A check looks markers up and then takes rules in turn, unless a marker was found. If the
call for a rule fails, the request is allowed, by no rule but with the rule's name in the
details, by a limiter that fails open, and by no other: there the answer is an error, which
is the one of the call if that blames the store, and if not blames the store with its
message. Such an error is the answer if and only if the call for some rule fails and no rule
before it is exceeded. A limiter that fails open always decides, and every error blames the
store.

A lookup that fails lets nobody past and stops nothing: from where the lookups left the
backend, which is with the store and the clock as they were, the check goes on as the check
of a limiter without a whitelist. In all cases the store is changed by the calls that were
answered and by nothing else. -/
theorem check_despite_failures (l : Limiter) (request : Request) {d : Disturbance}
    (hd : d.OnlyOutages) (b : Backend) :
    let now := b.clock.now
    let asked := (l.check request now).exchanges (Backend.answerAmid d) b
    let told := ((l.check request now).run (Backend.answerAmid d) b).1.1
    (∃ (lookups : List Exchange) (turns : List (l.Turn request now)),
      asked = lookups ++ turns.map Limiter.Turn.exchange ∧
      (∀ x ∈ lookups, ∃ key, x.call = .hasMarker key) ∧
      (l.settings.enabled = true → l.whitelist.matchesLists request = false →
        (¬ ∃ x ∈ lookups, x.found? = some true) →
          InTurn Limiter.Turn.rule (fun t => t.passes = false) turns (l.rules.resolve request)) ∧
      (∀ t ∈ turns, ∀ error, t.failure? = some error →
        (l.settings.failOpen = true → told = .ok (.pass
          [("reason", "store_failure"), ("fail_open", "true"), ("rule", t.rule.id)]
          (now / 1000)) ∧
          ∃ d, told = .ok d ∧ d.Unruled "store_failure" ∧
            d.details.lookup "fail_open" = some "true" ∧
            d.details.lookup "rule" = some t.rule.id) ∧
        (l.settings.failOpen = false → told = .error
          (if error.isStoreFailure then error else .storeUnavailable error.message))) ∧
      (l.settings.failOpen = false → ((∃ error, told = .error error) ↔
        ∃ earlier t later, turns = earlier ++ t :: later ∧ t.failure?.isSome = true ∧
          ∀ before ∈ earlier, before.exceeds = false))) ∧
    (l.settings.failOpen = true → ∃ decision, told = .ok decision) ∧
    (∀ error, told = .error error → error.isStoreFailure = true) ∧
    (∀ x ∈ asked, ∀ key, x.call = .hasMarker key → ¬ x.IsAnswered →
      let left := ((l.lookUp request).run (Backend.answerAmid d) b).2
      left.store = b.store ∧ left.clock = b.clock ∧
        (l.check request now).run (Backend.answerAmid d) b =
          (l.withoutWhitelist.check request now).run (Backend.answerAmid d) left) ∧
    ((l.check request now).run (Backend.answerAmid d) b).2.store =
      Exchange.effects now b.store asked := by
  intro now asked told
  obtain ⟨e, hchecks, htold⟩ :=
    Limiter.checks_of_goes (Interaction.goes_exchanges (Backend.answerAmid d)
      (l.check request now) b)
  change l.Checks request now asked e at hchecks
  change told = e.result l.settings.failOpen l.settings.keySpace request (now / 1000) at htold
  refine ⟨?_, ?_, ?_, ?_, ?_⟩
  · obtain ⟨lookups, turns, hasked, hlooks, hturns, hfailing, hfailed⟩ :=
      hchecks.exists_turns_despite
    refine ⟨lookups, turns, hasked, hlooks, hturns, ?_, ?_⟩
    · intro t ht error hfails
      obtain ⟨rule, hid, rfl⟩ := hfailing t ht error hfails
      constructor
      · intro hopen
        have hallowed : told = .ok (.pass
            [("reason", "store_failure"), ("fail_open", "true"), ("rule", t.rule.id)]
            (now / 1000)) := by
          rw [htold, hopen, ← hid]
          rfl
        exact ⟨hallowed, _, hallowed, Decision.unruled_pass rfl _, rfl, rfl⟩
      · intro hclosed
        rw [htold, hclosed]
        rfl
    · intro hclosed
      constructor
      · rintro ⟨error, herror⟩
        rw [htold, Ending.result_eq_error_iff] at herror
        obtain ⟨-, rule, cause, he, -⟩ := herror
        obtain ⟨⟨t, ht, hfails⟩, hturn⟩ := hfailed rule cause he
        obtain ⟨earlier, later, rfl⟩ := List.append_of_mem ht
        refine ⟨earlier, t, later, rfl, by rw [hfails]; rfl, ?_⟩
        intro before hbefore
        have hpasses := hturn.unsettled_of_split before hbefore
        exact before.exceeds_eq_false_of_passes (by simpa using hpasses)
      · rintro ⟨earlier, t, later, rfl, hfails, -⟩
        obtain ⟨error, hfails⟩ := Option.isSome_iff_exists.1 hfails
        obtain ⟨rule, -, rfl⟩ := hfailing t List.mem_append_cons_self error hfails
        exact ⟨error.asStoreFailure, by rw [htold, hclosed]; rfl⟩
  · intro hopen
    cases hresult : told with
    | ok decision => exact ⟨decision, rfl⟩
    | error error =>
      rw [hresult, eq_comm, Ending.result_eq_error_iff, hopen] at htold
      cases htold.1
  · intro error herror
    rw [htold, Ending.result_eq_error_iff] at herror
    obtain ⟨-, rule, cause, -, rfl⟩ := herror
    exact cause.isStoreFailure_asStoreFailure
  · exact fun x hx key hcall hfails => Limiter.run_check_of_lookup_fails hd hx hcall hfails
  · exact Backend.store_run_answerAmid hd _ b

/-! ## A lookup and a rule that fail -/

namespace FailureSample

/-- Two rules, asked in this order. -/
def rules : List Rule := [Rule.basic "burst" .address 5 60, Rule.basic "share" .tenant 3 60]

/-- A limiter that looks for overrides and turns requests away when the store fails. -/
def limiter : Limiter := ⟨⟨true, false, 50, "turnstile"⟩, ⟨rules⟩, ⟨[], [], [], true⟩⟩

def request : Request :=
  (Request.describe "PUT" "/upload" "10.0.0.1").withTenant (some "acme")

/-- The first call is not replied to, and the third fails with an error that does not
blame the store. -/
def failures : Disturbance := fun i b =>
  { b with
    outage := match i with
      | 0 => some ⟨none, [], 0⟩
      | 2 => some ⟨some (.configuration "no script"), [], 0⟩
      | _ => none }

end FailureSample

open FailureSample in
/-- The lookup is not replied to, the first rule passes and is counted, and the call for the
second rule fails. -/
theorem check_despite_failures_of_upload :
    let asked :=
      (limiter.check request 60000).exchanges (Backend.answerAmid failures) (.start 60000)
    let done := (limiter.check request 60000).run (Backend.answerAmid failures) (.start 60000)
    asked.map (Exchange.failure? 50) =
        [some (.storeTimeout 50), none, some (.configuration "no script")] ∧
      done.1.1 = .error (.storeUnavailable "Configuration error: no script") ∧
      (∃ (lookups : List Exchange) (earlier later : List (limiter.Turn request 60000))
        (t : limiter.Turn request 60000),
        asked = lookups ++ (earlier ++ t :: later).map Limiter.Turn.exchange ∧
          t.failure?.isSome = true ∧ ∀ before ∈ earlier, before.exceeds = false) ∧
      done = (limiter.withoutWhitelist.check request 60000).run (Backend.answerAmid failures)
        ((limiter.lookUp request).run (Backend.answerAmid failures) (.start 60000)).2 ∧
      done.2.store = Exchange.effects 60000 Store.empty asked := by
  intro asked done
  have hd : failures.OnlyOutages := fun _ _ => ⟨_, rfl⟩
  have hresolve : limiter.rules.resolve request = rules := by cbv
  have hfailures : asked.map (Exchange.failure? 50) =
      [some (.storeTimeout 50), none, some (.configuration "no script")] := by
    dsimp only [asked]
    rw [Limiter.check, Limiter.evaluate, hresolve]
    decide +kernel
  have htold : done.1.1 = .error (.storeUnavailable "Configuration error: no script") := by
    dsimp only [done]
    rw [Limiter.check, Limiter.evaluate, hresolve]
    decide +kernel
  have hfirst : asked.head? = some ⟨.hasMarker "turnstile:whitelist:tenant:acme", .silent⟩ := by
    dsimp only [asked]
    rw [Limiter.check, Limiter.evaluate, hresolve]
    rfl
  obtain ⟨⟨lookups, turns, hasked, -, -, -, hiff⟩, -, -, hlookup, hstore⟩ :=
    check_despite_failures limiter request hd (.start 60000)
  obtain ⟨earlier, t, later, rfl, hfails, hbefore⟩ := (hiff rfl).1 ⟨_, htold⟩
  have hrun := (hlookup _ (List.mem_of_head? hfirst) _ rfl (by decide)).2.2
  exact ⟨hfailures, htold, ⟨lookups, earlier, later, t, hasked, hfails, hbefore⟩, hrun, hstore⟩

end Admission
