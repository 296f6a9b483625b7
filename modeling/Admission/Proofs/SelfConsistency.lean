/-
The parts of a decision agree with each other.

A client is told a verdict, a rule, a count, a limit, times, a message and a reason. They come
from one ending of the check, and the numbers from one answer of a store, so it is enough to say
what a store can answer at all: an increment counts the request, and what it finds exceeded has
reached the limit (`Limiter.Hears.counts`). Nothing is assumed about the store that
answers, neither how it came about nor when, so the law holds after any history
(`decision_agrees_with_itself`).
-/
import Admission.Proofs.ArrivalOrder
import Admission.Proofs.Failure
import Admission.Proofs.Precedence
import Admission.Proofs.Refusal

set_option autoImplicit false

namespace Admission

/-! ## What a store can answer -/

/-- **What was answered, a store answered,** at some time and in some state. -/
theorem Service.exists_store_of_isAnswered {d : Disturbance} {s : Service} {command : Command}
    {x : Exchange} (hx : x ∈ (s.happening d command).exchanges) (hanswered : x.IsAnswered) :
    ∃ (u : Store) (now : Nat), x.reply = .answered (u.answer now x.call).1 := by
  obtain ⟨m, hm⟩ := exists_conversation_of_mem hx
  rw [exchanges_of_conversation hm] at hx
  obtain ⟨b, hreply⟩ := Interaction.exists_answer_of_mem_exchanges hx
  obtain ⟨-, ⟨hanswer, -⟩ | ⟨hnone, -⟩⟩ := Backend.answer_cases (d b.calls.length b) x.call
  · exact ⟨_, _, hreply.trans hanswer⟩
  · rw [Exchange.IsAnswered, hreply, Backend.answerAmid, hnone] at hanswered
    cases hanswered

/-- **How far an increment can count:** what is exceeded has reached the limit, and in a fixed
window passed it; what is not counts the request itself and stays within the limit. -/
structure Observation.Counts (o : Observation) (rule : Rule) : Prop where
  of_exceeded : o.exceeded = true →
    rule.limit ≤ o.count ∧ (rule.algorithm = .fixedWindow → rule.limit < o.count)
  of_passed : o.exceeded = false → 1 ≤ o.count ∧ o.count ≤ rule.limit

theorem Observation.counts_ofFixed (u : Store) (rule : Rule) (key : CounterKey)
    (now n window : Nat) (text : String) :
    (ofFixed rule key now (u.answer n (.incrementFixed text window)).1).Counts rule := by
  have hpos : 1 ≤ (u.answer n (.incrementFixed text window)).1.count := Nat.le_add_left 1 _
  constructor
  · intro hexceeded
    have hlt := of_decide_eq_true hexceeded
    exact ⟨hlt.le, fun _ => hlt⟩
  · intro hpassed
    exact ⟨hpos, Nat.le_of_not_lt (of_decide_eq_false hpassed)⟩

theorem Observation.counts_ofSliding (u : Store) {rule : Rule} (ha : rule.algorithm = .slidingWindow)
    (key : CounterKey) (n window instant : Nat) (text : String) :
    (ofSliding key (u.answer n (.incrementSliding text window rule.limit instant)).1).Counts
      rule := by
  have hattempt : (u.answer n (.incrementSliding text window rule.limit instant)).1 =
      ((u.slidingLog text window).attempt instant window rule.limit).1 := rfl
  rw [hattempt]
  -- the log may hold more than the limit, so a refusal can count further
  by_cases hfull : rule.limit ≤ ((u.slidingLog text window).found window instant).length
  · obtain ⟨hcount, hexceeded, -⟩ := SlidingLog.attempt_of_full hfull
    constructor <;> simp [ofSliding, hcount, hexceeded, hfull, ha]
  · obtain ⟨hcount, hpassed, -⟩ := SlidingLog.attempt_of_room hfull
    constructor
    · simp [ofSliding, hpassed]
    · simp only [ofSliding, hcount, hpassed]
      omega

/-- **What is heard of a rule from any store** counts no further than that. -/
theorem Limiter.Hears.counts {l : Limiter} {rule : Rule} {key : CounterKey} {now n : Nat}
    {x : Exchange} {o : Observation} {u : Store} (h : l.Hears rule key now x (.ok o))
    (hreply : x.reply = .answered (u.answer n x.call).1) : o.Counts rule := by
  generalize hheard : (Except.ok o : Except Error Observation) = heard at h
  cases h with
  | fixed ha reply =>
    dsimp only at hreply
    rw [hreply] at hheard
    rw [Except.ok.inj hheard]
    exact Observation.counts_ofFixed u rule key now n _ _
  | sliding ha reply =>
    dsimp only at hreply
    rw [hreply] at hheard
    rw [Except.ok.inj hheard]
    exact Observation.counts_ofSliding u ha key n _ _ _

/-! ## Allowances without a rule -/

namespace Limiter

variable {l : Limiter} {request : Request} {now : Nat} {xs : List Exchange} {e : Ending}

/-- **Why a request is let past without a rule,** with the reason that is given: limiting is
switched off; the lists or a marker that was found let the request past; no rule governs it; or
a call that counts the request failed. -/
inductive Excuses (l : Limiter) (request : Request) (xs : List Exchange) : String → Prop
  | disabled (hoff : l.settings.enabled = false) : Excuses l request xs "disabled"
  | whitelisted (hon : l.settings.enabled = true)
      (h : l.whitelist.matchesLists request = true ∨ ∃ x ∈ xs, x.found? = some true) :
      Excuses l request xs "whitelisted"
  | noRules (hon : l.settings.enabled = true) (hr : l.rules.resolve request = []) :
      Excuses l request xs "no_rules"
  | failedOpen (hon : l.settings.enabled = true) (hopen : l.settings.failOpen = true)
      (h : ∃ x ∈ xs, x.call.isIncrement = true ∧ ¬ x.IsAnswered) :
      Excuses l request xs "store_failure"

theorem Excuses.reason_mem {reason : String} (h : l.Excuses request xs reason) :
    reason ∈ ["disabled", "whitelisted", "no_rules", "store_failure"] := by
  cases h <;> simp

/-- An evaluation of rules ends with the rules. -/
theorem Evaluates.ends_with_rules {busiest : Option Measured} {rules : List Rule}
    (h : l.Evaluates request now busiest rules xs e) :
    e = .nothingCounted ∨ (∃ m, e = .passed m ∨ e = .denied m) ∨
      ∃ rule error, e = .failed rule error := by
  induction h with
  | nothing => exact .inl rfl
  | passed m => exact .inr (.inl ⟨m, .inl rfl⟩)
  | failed => exact .inr (.inr ⟨_, _, rfl⟩)
  | denied => exact .inr (.inl ⟨_, .inr rfl⟩)
  | skipped _ _ ih | passes _ _ _ _ ih => exact ih

/-- **A check whose decision names no rule** had an excuse, and gives it as the reason. -/
theorem Checks.excuses (h : l.Checks request now xs e) {space : String} {seconds : Nat}
    {dec : Decision} (hdec : e.result l.settings.failOpen space request seconds = .ok dec)
    (hnone : dec.hasRule = false) :
    ∃ reason, dec.details.lookup "reason" = some reason ∧ l.Excuses request xs reason := by
  have hne := h.ne_nothingCounted
  have hfailure := fun {rule error} (he : e = .failed rule error) => (he ▸ h).exists_unanswered
  cases h with
  | disabled hoff =>
    cases hdec
    exact ⟨_, rfl, .disabled hoff⟩
  | whitelisted hon hw =>
    cases hdec
    refine ⟨_, rfl, .whitelisted hon ?_⟩
    by_cases hlists : l.whitelist.matchesLists request = true
    · exact .inl hlists
    · rw [Bool.not_eq_true] at hlists
      exact .inr ((Whitelist.inTurn_of_lets_goes hlists hw).2.1 rfl)
  | noRules hon _ hr =>
    cases hdec
    exact ⟨_, rfl, .noRules hon hr⟩
  | asked hon _ _ he =>
    rcases he.ends_with_rules with rfl | ⟨m, rfl | rfl⟩ | ⟨rule, error, rfl⟩
    · exact absurd rfl hne
    · cases hdec
      cases hnone
    · cases hdec
      cases hnone
    · cases hopen : l.settings.failOpen with
      | false =>
        rw [hopen] at hdec
        cases hdec
      | true =>
        rw [hopen] at hdec
        cases hdec
        exact ⟨_, rfl, .failedOpen hon hopen (hfailure rfl)⟩

end Limiter

/-! ## The parts of a decision -/

namespace Decision

/-- **A denial by a rule,** with the numbers that belong to it. -/
structure DeniedBy (dec : Decision) (rule : Rule) : Prop where
  applied : dec.appliedRule = some rule.id
  limit : dec.limit = rule.limit
  le_count : rule.limit ≤ dec.currentCount
  lt_count : rule.algorithm = .fixedWindow → rule.limit < dec.currentCount
  remaining : dec.remaining = 0
  retryAfter : dec.retryAfterSeconds = some (max dec.resetAfterSeconds 1)
  message : dec.message.isSome = true

/-- **An allowance that shows a rule,** with the numbers that belong to it. -/
structure AllowedUnder (dec : Decision) (rule : Rule) : Prop where
  applied : dec.appliedRule = some rule.id
  limit : dec.limit = rule.limit
  one_le_count : 1 ≤ dec.currentCount
  count_le : dec.currentCount ≤ rule.limit
  window : dec.details.lookup "window_seconds" = some (Nat.repr rule.windowSeconds)

theorem deniedBy_denial {m : Measured} (h : m.observation.Counts m.rule)
    (hexceeded : m.observation.exceeded = true) (space : String) (request : Request)
    (seconds : Nat) : (denial space m request seconds).DeniedBy m.rule := by
  obtain ⟨hle, hlt⟩ := h.of_exceeded hexceeded
  exact ⟨rfl, rfl, hle, hlt, Nat.sub_eq_zero_of_le hle, rfl, rfl⟩

theorem allowedUnder_allowance {m : Measured} (h : m.observation.Counts m.rule)
    (hpassed : m.observation.exceeded = false) (space reason : String) (seconds : Nat) :
    (allowance space m reason seconds).AllowedUnder m.rule := by
  obtain ⟨hpos, hle⟩ := h.of_passed hpassed
  exact ⟨rfl, rfl, hpos, hle, rfl⟩

end Decision

/-- **Three kinds of decisions** come out of a check: an allowance without a rule, and an
allowance or a denial with the numbers of one. -/
theorem Ending.decision_cases {e : Ending} {failOpen : Bool} {space : String} {request : Request}
    {seconds : Nat} {dec : Decision}
    (h : e.result failOpen space request seconds = .ok dec) :
    (∃ details, dec = .pass details seconds) ∨
      (∃ m, e = .passed m ∧ dec = .allowance space m "most_utilized" seconds) ∨
        ∃ m, e = .denied m ∧ dec = .denial space m request seconds := by
  cases e with
  | disabled | whitelisted | noRules | nothingCounted =>
    cases h
    exact .inl ⟨_, rfl⟩
  | passed m =>
    cases h
    exact .inr (.inl ⟨m, rfl, rfl⟩)
  | denied m =>
    cases h
    exact .inr (.inr ⟨m, rfl, rfl⟩)
  | failed rule error =>
    cases failOpen with
    | false => cases h
    | true =>
      cases h
      exact .inl ⟨_, rfl⟩

/-- What is heard of the rule that a check ends with counts no further than a store can. -/
theorem Service.counts_of_applied {d : Disturbance} {s : Service} {request : Request} {e : Ending}
    {m : Measured}
    (h : s.limiter.Checks request s.now (s.happening d (.check request)).exchanges e)
    (he : e = .passed m ∨ e = .denied m) :
    m.rule ∈ s.limiter.rules.resolve request ∧ m.observation.Counts m.rule ∧
      (m.observation.exceeded = true ↔ e = .denied m) := by
  obtain ⟨hr, x, hx, key, -, hheard, hexceeded⟩ := h.heard_of_applied he
  obtain ⟨u, n, hreply⟩ := exists_store_of_isAnswered hx hheard.isAnswered
  exact ⟨hr, hheard.counts hreply, hexceeded⟩

/-! ## The law -/

/-- **Every decision agrees with itself.** Take a limiter with rules that could be made, and any
history of it: any commands, reloads and clocks that jump among them, and anything at all that
happens to the store, its clock and its outages between the calls. Then take any check that is
decided.

If the request is denied, the decision names a rule in force that governs the request and is
switched on. It has the rule's limit, the count has reached that limit, and passed it if the
rule has a fixed window, so nothing remains; the time after which to retry is the time to the
reset, one second at least; and there is a message.

If the request is allowed, there is neither such a time nor a message. If a rule is named, it is
in force and governs the request, the limit and the window are the rule's own, and the count is
at least one and within the limit.

No rule is named exactly if limiting is switched off, the whitelist let the request past, no rule
governs it, or the limiter fails open and a call that counts the request failed; and that is the
reason given. -/
theorem decision_agrees_with_itself {rules : List Rule} {defaults : DefaultLimits} {set : RuleSet}
    (hbuild : RuleSet.build rules defaults = .ok set) (settings : LimiterSettings)
    (whitelist : Whitelist) (start : Nat) (d : Disturbance) (commands : List Command)
    (request : Request) :
    let s := (Service.start ⟨settings, set, whitelist⟩ start).after d commands
    let inForce (rule : Rule) : Prop :=
      s.limiter.rules.get? rule.id = some rule ∧ rule.Governs request
    ∀ dec metrics, (s.happening d (.check request)).report = .decision (.ok dec) metrics →
      (dec.allowed = false → ∃ rule, inForce rule ∧ dec.DeniedBy rule) ∧
      (dec.allowed = true → dec.retryAfterSeconds = none ∧ dec.message = none ∧
        (dec.hasRule = true → ∃ rule, inForce rule ∧ dec.AllowedUnder rule)) ∧
      (dec.hasRule = false ↔ ∃ reason, dec.details.lookup "reason" = some reason ∧
        s.limiter.Excuses request (s.happening d (.check request)).exchanges reason) := by
  intro s inForce dec metrics hreport
  have hs : s.limiter.rules.Sound :=
    Service.sound_after (s := .start ⟨settings, set, whitelist⟩ start)
      (RuleSet.sound_of_build hbuild) commands
  have hforce : ∀ rule ∈ s.limiter.rules.resolve request, inForce rule := by
    intro rule hr
    obtain ⟨hmem, hrelevant⟩ := RuleSet.mem_resolve_iff.1 hr
    exact ⟨hs.get?_eq_some hmem, RuleSet.isSome_relevance?_iff.1 hrelevant⟩
  obtain ⟨e, metrics', hchecks, htold⟩ := Service.checks_happening d s request
  rw [hreport, Report.decision.injEq] at htold
  have hdec := htold.1.symm
  have hexcuses := hchecks.excuses hdec
  -- a reason that is given with a rule is no excuse
  have hnamed : ∀ {reason}, reason ∉ ["disabled", "whitelisted", "no_rules", "store_failure"] →
      dec.details.lookup "reason" = some reason →
        ¬ ∃ reason, dec.details.lookup "reason" = some reason ∧
          s.limiter.Excuses request (s.happening d (.check request)).exchanges reason := by
    rintro reason hreason hlookup ⟨excuse, hexcuse, h⟩
    rw [hlookup, Option.some.injEq] at hexcuse
    exact hreason (hexcuse ▸ h.reason_mem)
  rcases Ending.decision_cases hdec with ⟨details, rfl⟩ | ⟨m, rfl, rfl⟩ | ⟨m, rfl, rfl⟩
  · exact ⟨nofun, fun _ => ⟨rfl, rfl, nofun⟩, iff_of_true rfl (hexcuses rfl)⟩
  · obtain ⟨hr, hcounts, hexceeded⟩ := Service.counts_of_applied hchecks (.inl rfl)
    have hpassed : m.observation.exceeded = false := by
      rw [Bool.eq_false_iff, Ne, hexceeded]
      exact Ending.noConfusion
    have hallowed := Decision.allowedUnder_allowance hcounts hpassed
      s.limiter.settings.keySpace "most_utilized" (s.now / 1000)
    exact ⟨nofun, fun _ => ⟨rfl, rfl, fun _ => ⟨m.rule, hforce _ hr, hallowed⟩⟩,
      iff_of_false nofun (hnamed (by decide) rfl)⟩
  · obtain ⟨hr, hcounts, hexceeded⟩ := Service.counts_of_applied hchecks (.inr rfl)
    have hdenied := Decision.deniedBy_denial hcounts (hexceeded.2 rfl)
      s.limiter.settings.keySpace request (s.now / 1000)
    exact ⟨fun _ => ⟨m.rule, hforce _ hr, hdenied⟩, nofun,
      iff_of_false nofun (hnamed (by decide) rfl)⟩

/-! ## A log longer than the limit -/

namespace SelfConsistencySample

/-- A limit on the requests of the last minute. -/
def share (limit : Nat) : Rule :=
  { Rule.basic "share" .address limit 60 with algorithm := .slidingWindow }

def request : Request := Request.describe "GET" "/search" "10.0.0.1"

def settings : LimiterSettings := ⟨true, true, 50, "turnstile"⟩

/-- The second call is not replied to. -/
def failures : Disturbance := fun i b =>
  { b with outage := if i = 1 then some ⟨none, [], 0⟩ else none }

/-- Three requests, the second of which is let past by a failure; then the limit is lowered and
the clock goes back. -/
def commands : List Command :=
  [.check request, .check request, .check request, .reload [share 1] .empty, .setClock 30000]

/-- What a report tells: the verdict, the rule, the count and the limit. -/
def told? : Report → Option (Bool × Option String × Nat × Nat)
  | .decision (.ok dec) _ => some (dec.allowed, dec.appliedRule, dec.currentCount, dec.limit)
  | _ => none

theorem exists_of_told? {report : Report} {told : Bool × Option String × Nat × Nat}
    (h : told? report = some told) :
    ∃ dec metrics, report = .decision (.ok dec) metrics ∧
      (dec.allowed, dec.appliedRule, dec.currentCount, dec.limit) = told := by
  unfold told? at h
  split at h
  · cases h
    exact ⟨_, _, rfl, rfl⟩
  · cases h

end SelfConsistencySample

open SelfConsistencySample in
/-- Two requests are on record when the limit is lowered to one, so the count that is told with
the denial is above the limit; nothing remains, and the client is told when to retry. -/
theorem decision_agrees_with_itself_of_share :
    let s :=
      (Service.start ⟨settings, ⟨[share 3]⟩, .ofConfig .empty⟩ 60000).after failures commands
    ∃ dec metrics, (s.happening failures (.check request)).report = .decision (.ok dec) metrics ∧
      (dec.allowed, dec.appliedRule, dec.currentCount, dec.limit) = (false, some "share", 2, 1) ∧
      ∃ rule, s.limiter.rules.get? rule.id = some rule ∧ rule.Governs request ∧
        dec.DeniedBy rule := by
  intro s
  have hbuild : RuleSet.build [share 3] .empty = .ok ⟨[share 3]⟩ := rfl
  have htold : told? (s.happening failures (.check request)).report =
      some (false, some "share", 2, 1) := by decide +kernel
  obtain ⟨dec, metrics, hreport, hnumbers⟩ := exists_of_told? htold
  obtain ⟨hdenied, -, -⟩ := decision_agrees_with_itself hbuild settings (.ofConfig .empty) 60000
    failures commands request dec metrics hreport
  obtain ⟨rule, ⟨hforce, hgoverns⟩, h⟩ := hdenied (congrArg Prod.fst hnumbers)
  exact ⟨dec, metrics, hreport, hnumbers, rule, hforce, hgoverns, h⟩

end Admission
