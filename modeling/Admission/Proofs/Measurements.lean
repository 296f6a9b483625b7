/-
What is measured about a check, beside what the client gets.

A check reads its measurements off the ending of the evaluation. Beside it stands here a check
that records as it goes (`Limiter.checkRecording`): a denial and a failed call are recorded where
they come up, and the check is counted last, under what was decided. The two are the same
conversation (`Limiter.check_eq_checkRecording`).

The law compares what is sent with two things that know nothing of endings: the answer that the
client gets, and the turns that the rules took with the store (`metrics_tell_the_truth`). The
store is any machine that answers calls, so it may hold anything and fail at any call.
-/
import Admission.Proofs.Failure

set_option autoImplicit false

namespace Admission

/-! ## Recording as it goes -/

namespace Limiter

/-- **What an evaluation leaves that records as it goes:** the events so far, and the outcome
with the decision, or an error. -/
abbrev Recorded := List Metric × Except Error (Outcome × Decision)

/-- What is left where the call for a rule failed. -/
def recordFailure (l : Limiter) (rule : Rule) (error : Error) (seconds : Nat) : Recorded :=
  ([.storeFailed rule.id error.isTimeout],
    if l.settings.failOpen then
      .ok (.failedOpen,
        .pass [("reason", "store_failure"), ("fail_open", "true"), ("rule", rule.id)] seconds)
    else .error error.asStoreFailure)

/-- What is left where a rule was exceeded. -/
def recordDenial (l : Limiter) (m : Measured) (request : Request) (seconds : Nat) : Recorded :=
  ([.violated m.rule.id m.rule.dimension],
    .ok (.denied, .denial l.settings.keySpace m request seconds))

/-- Asking the rules in turn. -/
def askRulesRecording (l : Limiter) (request : Request) (now : Nat) :
    (busiest : Option Measured) → List Rule → Interaction Recorded
  | none, [] => .done ([], .ok (.allowed, .pass [("reason", "no_applicable_rules")] (now / 1000)))
  | some busiest, [] =>
    .done ([], .ok (.allowed,
      .allowance l.settings.keySpace busiest "most_utilized" (now / 1000)))
  | busiest, rule :: rest =>
    match CounterKey.forRequest rule request (now / 1000) with
    | none => l.askRulesRecording request now busiest rest
    | some key =>
      (l.observe rule key now).bind fun observed =>
        match observed with
        | .error error => .done (l.recordFailure rule error (now / 1000))
        | .ok o =>
          if o.exceeded then .done (l.recordDenial ⟨rule, o⟩ request (now / 1000))
          else
            l.askRulesRecording request now
              (some (busiest.elim ⟨rule, o⟩ (·.busier ⟨rule, o⟩))) rest

/-- Evaluating a request. -/
def evaluateRecording (l : Limiter) (request : Request) (now : Nat) : Interaction Recorded :=
  let pass (outcome : Outcome) (reason : String) : Interaction Recorded :=
    .done ([], .ok (outcome, .pass [("reason", reason)] (now / 1000)))
  if !l.settings.enabled then pass .disabled "disabled"
  else
    (l.lookUp request).bind fun past =>
      if past then pass .whitelisted "whitelisted"
      else match l.rules.resolve request with
        | [] => pass .allowed "no_rules"
        | rule :: rest => l.askRulesRecording request now none (rule :: rest)

/-- Counting a check that was evaluated, under the rule that the decision names. -/
def countCheck : Recorded → Except Error Decision × List Metric
  | (events, .ok (outcome, decision)) =>
    (.ok decision, events ++ [.checked outcome decision.appliedRule])
  | (events, .error error) => (.error error, events ++ [.checked .error none])

/-- **A check that records as it goes.** -/
def checkRecording (l : Limiter) (request : Request) (now : Nat) :
    Interaction (Except Error Decision × List Metric) :=
  (l.evaluateRecording request now).bind fun recorded => .done (countCheck recorded)

/-- From any rule on, both tell the same. -/
theorem askRules_eq_askRulesRecording (l : Limiter) (request : Request) (now : Nat)
    (busiest : Option Measured) (rules : List Rule) :
    ((l.askRules request now busiest rules).bind fun e =>
        .done (e.result l.settings.failOpen l.settings.keySpace request (now / 1000),
          e.metrics l.settings.failOpen)) =
      (l.askRulesRecording request now busiest rules).bind fun recorded =>
        .done (countCheck recorded) := by
  -- on the rules that are left, whatever the busiest of those before them
  induction rules generalizing busiest with
  | nil => cases busiest <;> rfl
  | cons rule rest ih =>
    rw [askRules, askRulesRecording]
    cases CounterKey.forRequest rule request (now / 1000) with
    | none => exact ih busiest
    | some key =>
      dsimp only
      rw [Interaction.bind_assoc, Interaction.bind_assoc]
      congr 1
      funext observed
      cases observed with
      | error error =>
        dsimp only
        rw [recordFailure]
        cases l.settings.failOpen <;> rfl
      | ok o =>
        dsimp only
        split
        · rfl
        · exact ih _

/-- **What the ending tells is what was recorded** on the way to it. -/
theorem check_eq_checkRecording (l : Limiter) (request : Request) (now : Nat) :
    l.check request now = l.checkRecording request now := by
  rw [check, checkRecording, evaluate, evaluateRecording]
  split
  · rfl
  · rw [← lookUp, Interaction.bind_assoc, Interaction.bind_assoc]
    congr 1
    funext past
    cases past with
    | true => rfl
    | false =>
      simp only [Bool.false_eq_true, if_false]
      cases l.rules.resolve request with
      | nil => rfl
      | cons rule rest => exact askRules_eq_askRulesRecording l request now none (rule :: rest)

end Limiter

/-! ## What the client can tell -/

/-- The rule that an answer names, if it does. -/
def namedRule? : Except Error Decision → Option String
  | .ok d => d.appliedRule
  | .error _ => none

/-- **A label that fits the answer:** each of the six labels exactly where the answer says so,
by being an error, by not letting the request past, or by the reason it gives. -/
structure LabelFits (label : String) (told : Except Error Decision) : Prop where
  error_iff : label = "error" ↔ ∃ error, told = .error error
  denied_iff : label = "denied" ↔ ∃ d, told = .ok d ∧ d.allowed = false
  disabled_iff : label = "disabled" ↔
    ∃ d, told = .ok d ∧ d.details.lookup "reason" = some "disabled"
  whitelisted_iff : label = "whitelisted" ↔
    ∃ d, told = .ok d ∧ d.details.lookup "reason" = some "whitelisted"
  failedOpen_iff : label = "failed_open" ↔
    ∃ d, told = .ok d ∧ d.details.lookup "reason" = some "store_failure"
  allowed_iff : label = "allowed" ↔ ∃ d, told = .ok d ∧ d.allowed = true ∧
    ∀ reason, d.details.lookup "reason" = some reason →
      reason ∉ ["disabled", "whitelisted", "store_failure"]

namespace Ending

variable {e : Ending} {failOpen : Bool} {space : String} {request : Request} {seconds : Nat}

/-- **The outcome of an ending fits the answer** that the client gets. -/
theorem labelFits (e : Ending) (failOpen : Bool) (space : String) (request : Request)
    (seconds : Nat) :
    LabelFits (e.outcome failOpen).label (e.result failOpen space request seconds) := by
  cases e with
  | disabled | whitelisted | noRules | nothingCounted =>
    constructor <;> simp [outcome, result, Outcome.label, Decision.pass]
  | passed m =>
    constructor <;> simp [outcome, result, Outcome.label, Decision.allowance, List.lookup]
  | denied m =>
    constructor <;>
      simp [outcome, result, Outcome.label, Decision.denial, Decision.allowance, List.lookup]
  | failed rule error =>
    cases failOpen <;> constructor <;> simp [outcome, result, Outcome.label, Decision.pass]

/-- An ending is attributed to the rule that the answer names. -/
theorem namedRule?_result (e : Ending) (failOpen : Bool) (space : String) (request : Request)
    (seconds : Nat) :
    namedRule? (e.result failOpen space request seconds) = e.appliedRule.map Rule.id := by
  cases e with
  | disabled | whitelisted | noRules | nothingCounted | passed | denied => rfl
  | failed rule error => cases failOpen <;> rfl

/-- Only a denial turns a request away. -/
theorem eq_denied_of_result {d : Decision} (h : e.result failOpen space request seconds = .ok d)
    (hd : d.allowed = false) : ∃ m, e = .denied m ∧ d.appliedRule = some m.rule.id := by
  cases e with
  | disabled | whitelisted | noRules | nothingCounted | passed =>
    cases h
    cases hd
  | denied m =>
    cases h
    exact ⟨m, rfl, rfl⟩
  | failed rule error =>
    cases failOpen with
    | false => cases h
    | true =>
      cases h
      cases hd

end Ending

/-- **A kind that fits the error of a call,** which is a timeout or not. -/
structure KindFits (kind : String) (error : Error) : Prop where
  timeout_iff : kind = "timeout" ↔ ∃ budget, error = .storeTimeout budget
  unavailable_iff : kind = "unavailable" ↔ ¬ ∃ budget, error = .storeTimeout budget

/-! ## What is sent -/

/-- The samples of a name among those that are sent. -/
def Sample.named (name : String) (sent : List Sample) : List Sample :=
  sent.filter fun sample => sample.name = name

namespace Ending

/-- The samples of an ending. -/
def samples (failOpen : Bool) (e : Ending) : List Sample :=
  (e.metrics failOpen).flatMap Metric.samples

variable {e : Ending} {failOpen : Bool}

/-- A check is counted once, whatever else there is to measure. -/
theorem named_checks (e : Ending) (failOpen : Bool) :
    Sample.named "turnstile_checks_total" (e.samples failOpen) =
      [⟨"turnstile_checks_total", [("outcome", (e.outcome failOpen).label),
        ("rule", (e.appliedRule.map Rule.id).getD "none")], some 1⟩] := by
  cases e <;> simp [Sample.named, samples, metrics, Metric.samples, outcome, appliedRule]

theorem named_durations (e : Ending) (failOpen : Bool) :
    Sample.named "turnstile_check_duration_seconds" (e.samples failOpen) =
      [⟨"turnstile_check_duration_seconds", [("outcome", (e.outcome failOpen).label)], none⟩] := by
  cases e <;> simp [Sample.named, samples, metrics, Metric.samples, outcome, appliedRule]

theorem named_violations_denied (m : Measured) (failOpen : Bool) :
    Sample.named "turnstile_violations_total" ((Ending.denied m).samples failOpen) =
      [⟨"turnstile_violations_total",
        [("rule", m.rule.id), ("dimension", m.rule.dimension.tag)], some 1⟩] := by
  simp [Sample.named, samples, metrics, Metric.samples]

theorem named_violations_of_ne (h : ∀ m, e ≠ .denied m) :
    Sample.named "turnstile_violations_total" (e.samples failOpen) = [] := by
  cases e with
  | denied m => exact absurd rfl (h m)
  | disabled | whitelisted | noRules | nothingCounted | passed | failed =>
    simp [Sample.named, samples, metrics, Metric.samples]

theorem named_storeErrors_failed (rule : Rule) (error : Error) (failOpen : Bool) :
    ∃ kind, KindFits kind error ∧
      Sample.named "turnstile_store_errors_total" ((Ending.failed rule error).samples failOpen) =
        [⟨"turnstile_store_errors_total", [("rule", rule.id), ("kind", kind)], some 1⟩] := by
  refine ⟨if error.isTimeout then "timeout" else "unavailable", ?_, ?_⟩
  · cases error <;> constructor <;> simp [Error.isTimeout]
  · simp [Sample.named, samples, metrics, Metric.samples]

theorem named_storeErrors_of_ne (h : ∀ rule error, e ≠ .failed rule error) :
    Sample.named "turnstile_store_errors_total" (e.samples failOpen) = [] := by
  cases e with
  | failed rule error => exact absurd rfl (h rule error)
  | disabled | whitelisted | noRules | nothingCounted | passed | denied =>
    simp [Sample.named, samples, metrics, Metric.samples]

end Ending

/-! ## What the turns account for -/

/-- Where something settles the matter, it was asked last. -/
theorem InTurn.getLast?_of_settles {α β : Type} {question : β → α} {settles : β → Prop}
    {asked : List β} {questions : List α} (h : InTurn question settles asked questions) {b : β}
    (hb : b ∈ asked) (hsettles : settles b) : asked.getLast? = some b := by
  induction h with
  | nothingLeft => cases hb
  | settled => rw [List.mem_singleton.1 hb, List.getLast?_singleton]
  | @unsettled first others rest hfirst _ ih =>
    rcases List.mem_cons.1 hb with rfl | hb
    · exact absurd hsettles hfirst
    · rw [List.getLast?_cons, ih hb, Option.getD_some]

namespace Limiter

variable {l : Limiter} {request : Request} {now : Nat} {xs : List Exchange} {e : Ending}

/-- **Turns that account for an ending:** a denial comes from a turn that found its rule
exceeded, and the ending is a failure exactly if a turn failed. -/
structure Accounts (turns : List (l.Turn request now)) (e : Ending) : Prop where
  /-- nothing is asked after a rule that did not pass -/
  last : ∀ t ∈ turns, t.passes = false → turns.getLast? = some t
  denied : ∀ m, e = .denied m → ∃ t ∈ turns, t.rule = m.rule ∧ t.exceeds = true
  failed : ∀ rule error, e = .failed rule error → ∃ t ∈ turns, t.failure? = some error
  eq_failed : ∀ t ∈ turns, ∀ error, t.failure? = some error →
    ∃ rule, rule.id = t.rule.id ∧ e = .failed rule error

theorem Accounts.of_no_turns (hd : ∀ m, e ≠ .denied m) (hf : ∀ rule error, e ≠ .failed rule error) :
    Accounts ([] : List (l.Turn request now)) e where
  last := List.forall_mem_nil _
  denied := fun m he => absurd he (hd m)
  failed := fun rule error he => absurd he (hf rule error)
  eq_failed := List.forall_mem_nil _

theorem Turn.passes_of_exceeds {t : l.Turn request now} (h : t.exceeds = true) :
    t.passes = false := by
  by_contra hpasses
  rw [Bool.not_eq_false] at hpasses
  rw [t.exceeds_eq_false_of_passes hpasses] at h
  cases h

theorem Turn.passes_of_failure? {t : l.Turn request now} {error : Error}
    (h : t.failure? = some error) : t.passes = false := by
  rw [passes, t.hears.eq_error_iff.2 h]

/-- **A check is accounted for by its turns,** which are of the rules at the front of those that
govern the request. -/
theorem Checks.exists_accounts (h : l.Checks request now xs e) :
    ∃ (ws : List Exchange) (turns : List (l.Turn request now)) (rest : List Rule),
      xs = ws ++ turns.map Turn.exchange ∧ (∀ x ∈ ws, ∃ key, x.call = .hasMarker key) ∧
        l.rules.resolve request = turns.map Turn.rule ++ rest ∧ Accounts turns e := by
  cases h with
  | disabled =>
    exact ⟨[], [], l.rules.resolve request, rfl, List.forall_mem_nil _, rfl,
      .of_no_turns (fun _ => Ending.noConfusion) fun _ _ => Ending.noConfusion⟩
  | whitelisted _ hw | noRules _ hw =>
    exact ⟨_, [], l.rules.resolve request, (List.append_nil _).symm, looks_of_lookUp_goes hw, rfl,
      .of_no_turns (fun _ => Ending.noConfusion) fun _ _ => Ending.noConfusion⟩
  | asked _ hw _ he =>
    obtain ⟨turns, rfl, hturns, hconcludes⟩ :=
      he.exists_turns fun rule hr => RuleSet.isSome_valueOf_of_mem_resolve hr
    obtain ⟨rest, hrest⟩ := hturns.exists_rest
    refine ⟨_, turns, rest, rfl, looks_of_lookUp_goes hw, hrest, ?_, ?_, ?_, ?_⟩
    · exact fun t ht hpasses => hturns.getLast?_of_settles ht hpasses
    · intro m hm
      obtain ⟨t, ht, hrule, hheard, hexceeded⟩ := (hconcludes.denied_iff m).1 hm
      exact ⟨t, ht, hrule, by rw [Turn.exceeds, hheard]; exact hexceeded⟩
    · rintro rule error rfl
      obtain ⟨x, hx, hfails⟩ := he.exists_failure
      obtain ⟨t, ht, rfl⟩ := List.mem_map.1 hx
      exact ⟨t, ht, hfails⟩
    · intro t ht error hfails
      obtain ⟨rule, key, hkey, hheard, rfl⟩ := he.eq_failed (List.mem_map_of_mem ht) hfails
      exact ⟨rule, (t.ruleId_eq hkey hheard).symm, rfl⟩

end Limiter

/-! ## The law -/

/-- **The metrics tell the truth about every check.** Take any limiter, any request and time,
and whatever answers the calls.

What is sent is what a check would send that records as it goes. The check is counted once and
timed once, under an outcome that fits what the client gets and under the rule that the answer
names, or `none`.

After the lookups in the whitelist the store is asked for rules at the front of those that govern
the request, one turn each. If the request is denied, the last of these rules was exceeded, and
the answer names it; one violation is sent, with its id and the tag of its dimension. If it is
not denied, none is sent. If the call of a turn fails, it is the last one, and one failure of the
store is sent, with the id of the rule and the kind of the error. If none fails, none is sent. -/
theorem metrics_tell_the_truth (l : Limiter) (request : Request) (now : Nat) {σ : Type}
    (answer : σ → (call : Call) → Reply call.Answer × σ) (s : σ) :
    let asked := (l.check request now).exchanges answer s
    let told := ((l.check request now).run answer s).1.1
    let sent := ((l.check request now).run answer s).1.2.flatMap Metric.samples
    l.check request now = l.checkRecording request now ∧
    (∃ label, LabelFits label told ∧
      Sample.named "turnstile_checks_total" sent =
        [⟨"turnstile_checks_total",
          [("outcome", label), ("rule", (namedRule? told).getD "none")], some 1⟩] ∧
      Sample.named "turnstile_check_duration_seconds" sent =
        [⟨"turnstile_check_duration_seconds", [("outcome", label)], none⟩]) ∧
    ∃ (lookups : List Exchange) (turns : List (l.Turn request now)) (rest : List Rule),
      asked = lookups ++ turns.map Limiter.Turn.exchange ∧
      (∀ x ∈ lookups, ∃ key, x.call = .hasMarker key) ∧
      l.rules.resolve request = turns.map Limiter.Turn.rule ++ rest ∧
      (∀ d, told = .ok d → d.allowed = false →
        ∃ t, turns.getLast? = some t ∧ t.exceeds = true ∧ d.appliedRule = some t.rule.id ∧
          Sample.named "turnstile_violations_total" sent =
            [⟨"turnstile_violations_total",
              [("rule", t.rule.id), ("dimension", t.rule.dimension.tag)], some 1⟩]) ∧
      ((¬ ∃ d, told = .ok d ∧ d.allowed = false) →
        Sample.named "turnstile_violations_total" sent = []) ∧
      (∀ t ∈ turns, ∀ error, t.failure? = some error →
        turns.getLast? = some t ∧ ∃ kind, KindFits kind error ∧
          Sample.named "turnstile_store_errors_total" sent =
            [⟨"turnstile_store_errors_total", [("rule", t.rule.id), ("kind", kind)], some 1⟩]) ∧
      ((∀ t ∈ turns, t.failure? = none) →
        Sample.named "turnstile_store_errors_total" sent = []) := by
  intro asked told sent
  obtain ⟨e, hevaluates, hanswer⟩ := Interaction.goes_bind_done_iff.1
    (Interaction.goes_exchanges answer (l.check request now) s)
  have hchecks : l.Checks request now asked e := Limiter.checks_of_evaluate_goes hevaluates
  have htold : told = e.result l.settings.failOpen l.settings.keySpace request (now / 1000) :=
    congrArg Prod.fst hanswer
  have hsent : sent = e.samples l.settings.failOpen :=
    congrArg (fun answer => answer.2.flatMap Metric.samples) hanswer
  refine ⟨Limiter.check_eq_checkRecording l request now, ?_, ?_⟩
  · refine ⟨(e.outcome l.settings.failOpen).label, ?_, ?_, ?_⟩
    · rw [htold]
      exact e.labelFits _ _ _ _
    · rw [hsent, htold, Ending.namedRule?_result]
      exact e.named_checks _
    · rw [hsent]
      exact e.named_durations _
  obtain ⟨lookups, turns, rest, hasked, hlooks, hrest, haccounts⟩ := hchecks.exists_accounts
  refine ⟨lookups, turns, rest, hasked, hlooks, hrest, ?_, ?_, ?_, ?_⟩
  · intro d hd hdenied
    rw [htold] at hd
    obtain ⟨m, rfl, happlied⟩ := Ending.eq_denied_of_result hd hdenied
    obtain ⟨t, ht, hrule, hexceeds⟩ := haccounts.denied m rfl
    refine ⟨t, haccounts.last t ht (Limiter.Turn.passes_of_exceeds hexceeds), hexceeds, ?_, ?_⟩
    · rw [happlied, hrule]
    · rw [hsent, hrule]
      exact Ending.named_violations_denied m _
  · intro hnone
    rw [hsent]
    refine Ending.named_violations_of_ne ?_
    rintro m rfl
    exact hnone ⟨_, htold, rfl⟩
  · intro t ht error hfails
    obtain ⟨rule, hid, rfl⟩ := haccounts.eq_failed t ht error hfails
    refine ⟨haccounts.last t ht (Limiter.Turn.passes_of_failure? hfails), ?_⟩
    rw [hsent, ← hid]
    exact Ending.named_storeErrors_failed rule error _
  · intro hnone
    rw [hsent]
    refine Ending.named_storeErrors_of_ne ?_
    rintro rule error rfl
    obtain ⟨t, ht, hfails⟩ := haccounts.failed rule error rfl
    rw [hnone t ht] at hfails
    cases hfails

/-! ## A lookup and a rule that fail -/

namespace MeasurementSample

/-- Three rules, asked in this order. -/
def rules : List Rule :=
  [Rule.basic "burst" .address 5 60,
    { Rule.basic "share" .tenant 3 60 with algorithm := .slidingWindow },
    Rule.basic "total" .endpoint 9 60]

/-- A limiter that looks for overrides and fails open. -/
def limiter : Limiter := ⟨⟨true, true, 50, "turnstile"⟩, ⟨rules⟩, ⟨[], [], [], true⟩⟩

def request : Request :=
  (Request.describe "PUT" "/upload" "10.0.0.1").withTenant (some "acme")

/-- A store that refuses lookups, has room in every fixed window, and is silent about sliding
ones. -/
def answer : Unit → (call : Call) → Reply call.Answer × Unit
  | _, .hasMarker _ => (.failed (.storeUnavailable "down"), ())
  | _, .incrementFixed .. => (.answered ⟨4, 1000⟩, ())
  | _, .incrementSliding .. | _, .read _ | _, .reset _ | _, .setMarker .. => (.silent, ())

end MeasurementSample

open MeasurementSample in
/-- The lookup fails and nothing is sent about it; the first rule passes; nothing is heard of the
second, which is the one failure that is sent. -/
theorem metrics_tell_the_truth_of_upload :
    let done := ((limiter.check request 60000).run answer ()).1
    let sent := done.2.flatMap Metric.samples
    (∃ d, done.1 = .ok d ∧ d.details.lookup "reason" = some "store_failure") ∧
      Sample.named "turnstile_checks_total" sent =
        [⟨"turnstile_checks_total", [("outcome", "failed_open"), ("rule", "none")], some 1⟩] ∧
      Sample.named "turnstile_violations_total" sent = [] ∧
      ∃ t : limiter.Turn request 60000, t.exchange.call.key = "turnstile:share:tenant:acme:sw" ∧
        t.failure? = some (.storeTimeout 50) ∧
        Sample.named "turnstile_store_errors_total" sent =
          [⟨"turnstile_store_errors_total",
            [("rule", t.rule.id), ("kind", "timeout")], some 1⟩] := by
  intro done sent
  obtain ⟨-, ⟨label, hfits, hchecks, -⟩, lookups, turns, rest, hasked, hlooks, -, -, hviolations,
    hfailing, -⟩ := metrics_tell_the_truth limiter request 60000 answer ()
  have htold : ((limiter.check request 60000).run answer ()).1.1 = .ok (.pass
      [("reason", "store_failure"), ("fail_open", "true"), ("rule", "share")] 60) := by cbv
  have hreason : ∃ d, done.1 = .ok d ∧ d.details.lookup "reason" = some "store_failure" :=
    ⟨_, htold, by decide⟩
  have hlabel : label = "failed_open" := hfits.failedOpen_iff.2 hreason
  have hsilent : (⟨.incrementSliding "turnstile:share:tenant:acme:sw" 60000 3 60000, .silent⟩ :
      Exchange) ∈ (limiter.check request 60000).exchanges answer () := by
    have hexchanges : (limiter.check request 60000).exchanges answer () =
        [⟨.hasMarker "turnstile:whitelist:tenant:acme", .failed (.storeUnavailable "down")⟩,
          ⟨.incrementFixed "turnstile:burst:ip:10.0.0.1:1" 60000, .answered ⟨4, 1000⟩⟩,
          ⟨.incrementSliding "turnstile:share:tenant:acme:sw" 60000 3 60000, .silent⟩] := by
      cbv
    rw [hexchanges]
    simp
  rw [hlabel, htold] at hchecks
  refine ⟨hreason, hchecks, hviolations ?_, ?_⟩
  · rintro ⟨d, hd, hdenied⟩
    rw [htold] at hd
    cases hd
    cases hdenied
  · -- it is no lookup, so it is the turn of a rule
    rw [hasked] at hsilent
    rcases List.mem_append.1 hsilent with hlooked | hturn
    · obtain ⟨key, hcall⟩ := hlooks _ hlooked
      cases hcall
    obtain ⟨t, ht, hexchange⟩ := List.mem_map.1 hturn
    have hfails : t.failure? = some (.storeTimeout 50) := by
      rw [Limiter.Turn.failure?, hexchange]
      rfl
    obtain ⟨-, kind, hkind, hnamed⟩ := hfailing t ht _ hfails
    have htimeout : kind = "timeout" := hkind.timeout_iff.2 ⟨50, rfl⟩
    exact ⟨t, by rw [hexchange]; rfl, hfails, htimeout ▸ hnamed⟩

end Admission
