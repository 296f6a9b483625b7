/-
What a report says about a rule, and what was heard of the rule for it.

A decision carries a reason, and the reasons are told apart here: a request may be
let past without any rule having been asked, or because every rule that governs it
was asked and passed. The latter leaves an exchange for each of these rules
(`exists_hears_of_allows`), and a denial leaves one for the rule that denied
(`exists_hears_of_denies`). Conversely an exchange that counts a request decides
what the report says about its rule (`hears_of_counts`).
-/
import Admission.Proofs.History

set_option autoImplicit false

namespace Admission

/-! ## Reading a report -/

/-- **Whether a request is allowed** for a reason that is not one of those excused. -/
def Report.allowsBut (excused : List String) : Report → Bool
  | decision (.ok d) _ => d.allowed && !(d.details.lookup "reason").any (· ∈ excused)
  | _ => false

/-- **Whether a request is denied** by a rule. -/
def Report.deniesBy (ruleId : String) : Report → Bool
  | decision (.ok d) _ => !d.allowed && d.appliedRule == some ruleId
  | _ => false

/-- The reasons for an allowance that is not owed to the rules. -/
def Report.notByRules : List String := ["disabled", "whitelisted", "store_failure"]

/-- The same without the failures of a store. -/
def Report.notAsked : List String := ["disabled", "whitelisted"]

/-- Whether a rule governs what happens, with a value along its dimension. -/
def Happening.concerns (rule : Rule) (value : String) (h : Happening) : Bool :=
  match h.command with
  | .check request =>
    decide (rule ∈ h.before.limiter.rules.resolve request ∧ rule.valueOf request = some value)
  | _ => false

/-- A happening that a rule governs with a value, and that lets the request past. -/
def Happening.admits (rule : Rule) (value : String) (excused : List String) (h : Happening) :
    Bool := h.concerns rule value && h.report.allowsBut excused

variable {space : String} {request : Request} {seconds : Nat} {metrics : List Metric}

theorem Happening.concerns_iff {h : Happening} {rule : Rule} {value : String} :
    h.concerns rule value = true ↔ ∃ request, h.command = .check request ∧
      rule ∈ h.before.limiter.rules.resolve request ∧ rule.valueOf request = some value := by
  unfold concerns
  split
  · rename_i request hcheck
    rw [decide_eq_true_iff, hcheck]
    constructor
    · exact fun hrule => ⟨request, rfl, hrule⟩
    · rintro ⟨_, ⟨⟩, hrule⟩
      exact hrule
  · rename_i hcheck
    constructor
    · intro h
      cases h
    · rintro ⟨request, hrequest, -⟩
      exact absurd hrequest (hcheck request)

/-- A request has one value along a rule's dimension. -/
theorem Happening.eq_of_concerns {h : Happening} {rule : Rule} {a b : String}
    (ha : h.concerns rule a = true) (hb : h.concerns rule b = true) : a = b := by
  obtain ⟨request, hrequest, -, hvalue⟩ := concerns_iff.1 ha
  obtain ⟨request', hrequest', -, hvalue'⟩ := concerns_iff.1 hb
  rw [hrequest, Command.check.injEq] at hrequest'
  subst hrequest'
  rw [hvalue, Option.some.injEq] at hvalue'
  exact hvalue'

/-- A report denies by a rule if the evaluation ended with a denial by it. -/
theorem Ending.deniesBy_iff {failOpen : Bool} {e : Ending} {ruleId : String} :
    (Report.decision (e.result failOpen space request seconds) metrics).deniesBy ruleId = true ↔
      ∃ m, e = .denied m ∧ m.rule.id = ruleId := by
  cases e with
  | disabled | whitelisted | noRules | nothingCounted | passed =>
    simp [result, Report.deniesBy, Decision.pass, Decision.allowance]
  | denied m => simp [result, Report.deniesBy, Decision.denial, Decision.allowance]
  | failed rule error =>
    cases failOpen <;> simp [result, Report.deniesBy, Decision.pass]

/-- An allowance by the rules is the end of an evaluation that none of them stopped. -/
theorem Ending.passes_of_allowsBut {failOpen : Bool} {e : Ending} {excused : List String}
    (hexcused : "disabled" ∈ excused ∧ "whitelisted" ∈ excused)
    (hfail : failOpen = false ∨ "store_failure" ∈ excused)
    (h : (Report.decision (e.result failOpen space request seconds) metrics).allowsBut excused =
      true) : e.Passes := by
  cases e with
  | noRules | nothingCounted | passed => exact trivial
  | disabled => simp [result, Report.allowsBut, Decision.pass, List.lookup, hexcused.1] at h
  | whitelisted => simp [result, Report.allowsBut, Decision.pass, List.lookup, hexcused.2] at h
  | denied m => simp [result, Report.allowsBut, Decision.denial] at h
  | failed rule error =>
    rcases hfail with rfl | hfail
    · simp [result, Report.allowsBut] at h
    · cases failOpen <;>
        simp [result, Report.allowsBut, Decision.pass, List.lookup, hfail] at h

/-- Where no failure stopped the evaluation, only the reasons before it need be excused. -/
theorem Ending.passes_of_not_failed {failOpen : Bool} {e : Ending}
    (hfailed : ∀ rule error, e ≠ .failed rule error)
    (h : (Report.decision (e.result failOpen space request seconds) metrics).allowsBut
      Report.notAsked = true) : e.Passes := by
  -- only a failure asks whether the limiter fails open
  have hclosed : e.result failOpen space request seconds = e.result false space request seconds := by
    cases e with
    | disabled | whitelisted | noRules | nothingCounted | passed | denied => rfl
    | failed rule error => exact absurd rfl (hfailed rule error)
  rw [hclosed] at h
  exact passes_of_allowsBut (by decide) (.inl rfl) h

namespace Service

variable {d : Disturbance} {s : Service} {rule : Rule} {value : String} {command : Command}

/-- The key of a rule for a request that has the value. -/
theorem forRequest_of_valueOf {request : Request} (h : rule.valueOf request = some value)
    (seconds : Nat) :
    CounterKey.forRequest rule request seconds = some (CounterKey.forValue rule value seconds) := by
  rw [CounterKey.forRequest, h, Option.map_some]

/-- **An allowance by the rules was heard** from every rule that governs the request. -/
theorem exists_hears_of_allows {excused : List String}
    (hexcused : "disabled" ∈ excused ∧ "whitelisted" ∈ excused)
    (hfail : s.limiter.settings.failOpen = false ∨ "store_failure" ∈ excused)
    (h : (s.happening d command).admits rule value excused = true) :
    ∃ x ∈ (s.happening d command).exchanges, ∃ o,
      s.limiter.Hears rule (CounterKey.forValue rule value (s.now / 1000)) s.now x (.ok o) ∧
        o.exceeded = false := by
  rw [Happening.admits, Bool.and_eq_true, Happening.concerns_iff] at h
  obtain ⟨⟨request, hcheck, hrule, hvalue⟩, hallows⟩ := h
  change command = .check request at hcheck
  subst hcheck
  obtain ⟨e, metrics, hchecks, hreport⟩ := checks_happening d s request
  rw [hreport] at hallows
  have hpasses : e.Passes := Ending.passes_of_allowsBut hexcused hfail hallows
  exact hchecks.heard_of_passes hpasses rule hrule _ (forRequest_of_valueOf hvalue _)

/-- **A denial was heard** from the rule that denied. -/
theorem exists_hears_of_denies (hs : s.limiter.rules.Sound) (hrule : rule ∈ s.limiter.rules.rules)
    (h : (s.happening d command).report.deniesBy rule.id = true) :
    ∃ value, (s.happening d command).concerns rule value = true ∧
      ∃ x ∈ (s.happening d command).exchanges, ∃ o,
        s.limiter.Hears rule (CounterKey.forValue rule value (s.now / 1000)) s.now x (.ok o) ∧
          o.exceeded = true := by
  -- no other command is answered with a decision
  have hcheck : ∃ request, command = .check request := by
    cases hreport : (s.happening d command).report with
    | decision result metrics => exact eq_check_of_decision hreport
    | usage | removed | removedCount | acknowledged | reloaded | time | purged =>
      rw [hreport] at h
      cases h
  obtain ⟨request, rfl⟩ := hcheck
  obtain ⟨e, metrics, hchecks, hreport⟩ := checks_happening d s request
  rw [hreport, Ending.deniesBy_iff] at h
  obtain ⟨m, rfl, hid⟩ := h
  obtain ⟨hm, x, hx, key, hkey, hheard, ho⟩ := hchecks.heard_of_denied
  have hsame : m.rule = rule := hs.eq_of_id (RuleSet.mem_of_mem_resolve hm) hrule hid
  rw [hsame] at hm hkey hheard
  obtain ⟨value, hvalue, rfl⟩ := Limiter.eq_forValue_of_forRequest hkey
  exact ⟨value, Happening.concerns_iff.2 ⟨request, rfl, hm, hvalue⟩, x, hx, _, hheard, ho⟩

/-- **An exchange that counts a request** for a rule and a value decides what the
report says about the rule. -/
theorem hears_of_counts (hs : s.limiter.rules.Sound) (hrule : rule ∈ s.limiter.rules.rules)
    {x : Exchange} (hx : x ∈ (s.happening d command).exchanges)
    (hcounts : x.call.isIncrement = true)
    (hkey : x.call.key = (CounterKey.forValue rule value (s.now / 1000)).render
      s.limiter.settings.keySpace) :
    (s.happening d command).concerns rule value = true ∧ ∃ heard,
      s.limiter.Hears rule (CounterKey.forValue rule value (s.now / 1000)) s.now x heard ∧
        ∀ o, heard = .ok o → (s.happening d command).report.deniesBy rule.id = o.exceeded := by
  obtain ⟨request, rfl⟩ := eq_check_of_isIncrement hx hcounts
  obtain ⟨e, metrics, hchecks, hreport⟩ := checks_happening d s request
  obtain ⟨asked, hasked, key, heard, hask, hheard, hsettles⟩ := hchecks.heard hs hx hcounts
  obtain ⟨v, hv, rfl⟩ := Limiter.eq_forValue_of_forRequest hask
  -- the key names the rule and the value
  have heq := CounterKey.render_injective (hheard.call_key.symm.trans hkey)
  have hsame : asked = rule :=
    hs.eq_of_id (RuleSet.mem_of_mem_resolve hasked) hrule (congrArg CounterKey.ruleId heq)
  have hvalue : v = value := congrArg CounterKey.value heq
  subst hsame
  subst hvalue
  refine ⟨Happening.concerns_iff.2 ⟨request, rfl, hasked, hv⟩, heard, hheard, ?_⟩
  rintro o rfl
  rw [hreport, Bool.eq_iff_iff, Ending.deniesBy_iff]
  -- the rule's turn is settled: it denied, or no rule with its id did
  unfold Limiter.Settles at hsettles
  dsimp only at hsettles
  split at hsettles
  · rename_i ho
    exact iff_of_true ⟨_, hsettles, rfl⟩ ho
  · rename_i ho
    refine iff_of_false ?_ ho
    rintro ⟨m, hm, hid⟩
    exact hsettles m hm hid

end Service

end Admission
