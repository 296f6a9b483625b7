/-
How far away a reset can be.

A decision with the numbers of a rule tells how long it is until the rule's counter frees
capacity. For a fixed window that is the rest of its bucket (`Observation.resetAfter_ofFixed`).
For a sliding window it is the time until the oldest entry of a log leaves, and the log may have
been filled under other rules than those in force: an attempt trims it by the window that it
brings along, so the entry has not left yet (`SlidingLog.describes_attempt`); and whatever reloads
there were, every entry was made at the time of its attempt, so none lies ahead
(`Service.exists_meeting_outlasts`). Either way the reset comes after the present, within one window
and before the end of time (`Service.resetAfter_of_hears`).
-/
import Admission.Proofs.ResetInstant
import Admission.Proofs.Revival

set_option autoImplicit false

namespace Admission

/-! ## Whole seconds -/

/-- A time that is at most so many seconds is so when it is rounded up. -/
theorem ceilSeconds_le {millis seconds : Nat} (h : millis ≤ secondsToMillis seconds) :
    ceilSeconds millis ≤ seconds := by
  unfold ceilSeconds secondsToMillis at *
  omega

theorem ceilSeconds_pos {millis : Nat} (h : 0 < millis) : 0 < ceilSeconds millis := by
  unfold ceilSeconds
  omega

/-- For an instant on a whole second the two roundings lose nothing. -/
theorem add_ceilSeconds_sub_whole {now seconds : Nat} (h : now < secondsToMillis seconds) :
    now / 1000 + ceilSeconds (secondsToMillis seconds - now) = seconds := by
  unfold ceilSeconds secondsToMillis at *
  omega

/-! ## What attempts leave in a log -/

/-- An attempt is made at the present. -/
theorem Limiter.Asks.instant_eq {l : Limiter} {now : Nat} {call : Call} (h : l.Asks now call)
    {key : String} {window limit instant : Nat}
    (hcall : call = .incrementSliding key window limit instant) : instant = now := by
  cases h with
  | incrementSliding =>
    cases hcall
    rfl
  | incrementFixed | read | reset | resetOverride | setMarker | hasMarker => cases hcall

namespace Service

variable {d : Disturbance} {s : Service} {commands : List Command}

/-- Whatever happens in a history, it happens under rules that could be made. -/
theorem exists_sound_of_mem_chronicle (hs : s.limiter.rules.Sound) {h : Happening}
    (hh : h ∈ s.chronicle d commands) :
    ∃ (t : Service) (command : Command), t.limiter.rules.Sound ∧ h = t.happening d command := by
  induction commands generalizing s with
  | nil => cases hh
  | cons command rest ih =>
    rcases List.mem_cons.1 hh with rfl | hh
    · exact ⟨s, command, hs, rfl⟩
    · exact ih (sound_handleAmid hs command) hh

/-- **Attempts of a history** are made at the times they have in its journal, whatever reloads
there are. -/
theorem instant_eq_of_mem_journal (hs : s.limiter.rules.Sound) {j : Nat × Exchange}
    (hj : j ∈ Happening.journal (s.chronicle d commands)) {key : String}
    {window limit instant : Nat} (hcall : j.2.call = .incrementSliding key window limit instant) :
    instant = j.1 := by
  obtain ⟨h, hh, x, hx, rfl⟩ := Happening.mem_journal.1 hj
  obtain ⟨t, command, ht, rfl⟩ := exists_sound_of_mem_chronicle hs hh
  exact (happening_asks ht command x hx).instant_eq hcall

/-- **Whatever store answers in a history,** no entry of its logs lies ahead. -/
theorem exists_meeting_outlasts {l : Limiter} (hs : l.rules.Sound) (hd : d.OnlyOutages)
    {start : Nat} (hclock : (Clock.mk start).Steady commands) {command : Command} {x : Exchange} :
    let s := (Service.start l start).after d commands
    x ∈ (s.happening d command).exchanges → x.IsAnswered →
      ∃ u : Store, x.reply = .answered (u.answer s.now x.call).1 ∧
        ∀ key, Outlasts 0 s.now (u.find? key) := by
  intro s hx hanswered
  obtain ⟨xs, ys, u, hsplit, hbefore, hreply, -⟩ := exists_meeting hd hx hanswered
  have hserves : Store.Serves start Store.empty _ s.now u :=
    (chronicle_serves (s := Service.start l start) hd hclock).append hbefore
  refine ⟨u, hreply, fun key => hserves.outlasts Store.distinct_empty ?_ (Outlasts.none 0 start)⟩
  intro j hj longer limit instant hcall
  refine ⟨Nat.zero_le longer, ?_⟩
  -- the attempt is one of the commands before, or one before the call at the same command
  rcases List.mem_append.1 hj with hj | hj
  · exact instant_eq_of_mem_journal hs hj hcall
  · obtain ⟨y, hy, rfl⟩ := List.mem_map.1 hj
    have hmem : y ∈ (s.happening d command).exchanges := by
      rw [hsplit]
      exact List.mem_append_left _ hy
    have hsound : s.limiter.rules.Sound := sound_after (s := Service.start l start) hs commands
    exact (happening_asks hsound command y hmem).instant_eq hcall

end Service

/-! ## Within one window -/

/-- **What an attempt says of the reset** comes within its window, if no entry of the log lies
ahead. -/
theorem SlidingLog.resetAfter_attempt {l : SlidingLog} {now window limit : Nat}
    (hpast : Outlasts 0 now (some (.sliding l))) (hnow : now < Word.max) (hwindow : 0 < window)
    (hlimit : 0 < limit) :
    let reset := (l.attempt now window limit).1.resetAfter
    0 < reset ∧ reset ≤ window ∧ now + reset ≤ Word.max := by
  intro reset
  obtain ⟨oldest, hdescribes⟩ := l.describes_attempt hnow hwindow hlimit
  -- the oldest entry that is left bounds the reset from both sides: it has happened, and has not
  -- left yet
  have hmem := List.mem_of_mem_head? hdescribes.head
  have hoccurred : oldest ≤ now := ((hpast.attempt (Nat.zero_le window) limit) _ rfl oldest hmem).1
  have hinside := hdescribes.inside
  have hreset := hdescribes.resetAfter
  rw [l.window_attempt, Word.add_clamp] at hinside hreset
  change reset = _ at hreset
  have hshort : Word.clamp (oldest + window) ≤ oldest + window := Nat.min_le_left _ _
  have hword := Word.clamp_le (oldest + window)
  omega

/-- An increment in a fixed window says the same of its bucket. -/
theorem Rule.resetAfter_bucket {rule : Rule} {now : Nat} (hw : 0 < rule.windowSeconds)
    (hnow : now < Word.max) :
    let reset := rule.bucketDeadline (rule.bucketAt now) - now
    0 < reset ∧ reset ≤ rule.window ∧ now + reset ≤ Word.max := by
  intro reset
  have hbefore := rule.lt_bucketDeadline hw hnow
  have hwithin := rule.bucketDeadline_le now
  have hword := Word.clamp_le ((rule.bucketAt now + 1) * rule.window)
  have hshort : Word.clamp (now + rule.window) ≤ now + rule.window := Nat.min_le_left _ _
  rw [Word.add_clamp] at hwithin
  rw [← bucketDeadline] at hword
  omega

namespace Service

variable {d : Disturbance} {commands : List Command}

/-- **What is heard from a rule of the reset:** it comes after the present, within one window and
before the end of time. -/
theorem resetAfter_of_hears {l : Limiter} (hs : l.rules.Sound) (hd : d.OnlyOutages) {start : Nat}
    (hclock : (Clock.mk start).Steady commands) {command : Command} {rule : Rule} {value : String}
    {x : Exchange} {o : Observation} :
    let s := (Service.start l start).after d commands
    rule ∈ s.limiter.rules.rules → x ∈ (s.happening d command).exchanges →
      s.limiter.Hears rule (CounterKey.forValue rule value (s.now / 1000)) s.now x (.ok o) →
        0 < o.resetAfter ∧ o.resetAfter ≤ rule.window ∧ s.now + o.resetAfter ≤ Word.max := by
  intro s hr hx hheard
  have hsound : s.limiter.rules.Sound := sound_after (s := Service.start l start) hs commands
  have hnow : s.now < Word.max := now_after_lt (s := Service.start l start) hd hclock
  have hw := hsound.window_pos _ hr
  cases ha : rule.algorithm with
  | fixedWindow =>
    obtain ⟨c, -, rfl⟩ := hheard.exists_fixedCount ha
    rw [Observation.resetAfter_ofFixed ha hw]
    exact rule.resetAfter_bucket hw hnow
  | slidingWindow =>
    obtain ⟨u, hreply, hpast⟩ := exists_meeting_outlasts hs hd hclock hx hheard.isAnswered
    -- what was heard is the answer to an attempt on the log under the rule's key
    have hobserve := hheard.run_observe hreply
    rw [Limiter.run_observe_sliding ha, Prod.mk.injEq, Except.ok.injEq] at hobserve
    obtain ⟨rfl, -⟩ := hobserve
    exact SlidingLog.resetAfter_attempt (Store.outlasts_slidingLog (hpast _) rule.window) hnow
      (Rule.window_pos hw) (hsound.limit_pos _ hr)

end Service

/-! ## The law -/

/-- Whatever a check ends with, the instant of the reset is the present and the time until then. -/
theorem Ending.resetAt_eq {failOpen : Bool} {space : String} {request : Request} {seconds : Nat}
    {e : Ending} {dec : Decision} (h : e.result failOpen space request seconds = .ok dec) :
    dec.resetAt = seconds + dec.resetAfterSeconds := by
  cases e with
  | disabled | whitelisted | noRules | nothingCounted | passed | denied =>
    cases h
    rfl
  | failed rule error =>
    cases failOpen with
    | false => cases h
    | true =>
      cases h
      rfl

/-- **Resets stay within a window.** A limiter with rules that could be made serves any commands,
reloads among them, over a clock that never goes backward, while outages begin and end before any
call. Let a check be decided with the numbers of a rule.

Then it is a rule in force, and the reset is told to come after a second at least and the rule's
window at most. The instant that is told is this much after the present, and a word. For a
fixed-window rule whose bucket ends before the clock does it is the end of the bucket exactly, so
it is the same for all checks of the bucket. -/
theorem reset_within_window {rules : List Rule} {defaults : DefaultLimits} {set : RuleSet}
    (hbuild : RuleSet.build rules defaults = .ok set) (settings : LimiterSettings)
    (whitelist : Whitelist) {start : Nat} {d : Disturbance} (hd : d.OnlyOutages)
    {commands : List Command} (hclock : (Clock.mk start).Steady commands) (request : Request) :
    let s := (Service.start ⟨settings, set, whitelist⟩ start).after d commands
    ∀ dec metrics, (s.happening d (.check request)).report = .decision (.ok dec) metrics →
      dec.hasRule = true →
      ∃ rule ∈ s.limiter.rules.rules, dec.appliedRule = some rule.id ∧
        1 ≤ dec.resetAfterSeconds ∧ dec.resetAfterSeconds ≤ rule.windowSeconds ∧
        dec.resetAt = s.now / 1000 + dec.resetAfterSeconds ∧ dec.resetAt ≤ Word.max ∧
        (rule.algorithm = .fixedWindow →
          (rule.bucketAt s.now + 1) * rule.windowSeconds * 1000 ≤ Word.max →
          dec.resetAt = (rule.bucketAt s.now + 1) * rule.windowSeconds) := by
  intro s dec metrics hreport hrule
  have hs : set.Sound := RuleSet.sound_of_build hbuild
  have hnow : s.now < Word.max :=
    Service.now_after_lt (s := Service.start ⟨settings, set, whitelist⟩ start) hd hclock
  obtain ⟨e, _, -, hresult⟩ := Service.checks_happening d s request
  rw [hreport, Report.decision.injEq] at hresult
  have hresetAt : dec.resetAt = s.now / 1000 + dec.resetAfterSeconds :=
    Ending.resetAt_eq hresult.1.symm
  obtain ⟨rule, hr, value, o, -, hshows, x, hx, hheard⟩ :=
    Service.exists_hears_of_decision hreport (.inl hrule)
  obtain ⟨hpos, hwindow, hword⟩ := Service.resetAfter_of_hears hs hd hclock hr hx hheard
  have hafter : dec.resetAfterSeconds = ceilSeconds o.resetAfter :=
    Nat.add_left_cancel (hresetAt.symm.trans hshows.resetAt)
  refine ⟨rule, hr, hshows.applied, ?_, ?_, hresetAt, ?_, ?_⟩
  · rw [hafter]
    exact ceilSeconds_pos hpos
  · rw [hafter]
    exact ceilSeconds_le hwindow
  · -- rounding up costs less than a second, and there are far fewer seconds than milliseconds
    have hround := ceilSeconds_lt o.resetAfter
    rw [hresetAt, hafter]
    omega
  · intro ha hends
    have hw : 0 < rule.windowSeconds :=
      (Service.sound_after (s := Service.start ⟨settings, set, whitelist⟩ start) hs
        commands).window_pos _ hr
    -- the deadline is not cut down to a word, so it lies on a whole second
    have hdeadline : rule.bucketDeadline (rule.bucketAt s.now) =
        secondsToMillis ((rule.bucketAt s.now + 1) * rule.windowSeconds) := by
      rw [Rule.bucketDeadline, Rule.window, secondsToMillis, ← Nat.mul_assoc,
        Word.clamp_of_le hends, secondsToMillis]
    have hinside := rule.lt_bucketDeadline hw hnow
    rw [hdeadline] at hinside
    obtain ⟨c, -, rfl⟩ := hheard.exists_fixedCount ha
    rw [hshows.resetAt, Observation.resetAfter_ofFixed ha hw, hdeadline]
    exact add_ceilSeconds_sub_whole hinside

open ResetInstantSample in
/-- A request was let through at 10.5 s by a rule with a window of one second, and the window is
made a minute then. Half a second later the log still holds the request, and the reset is told to
come in a minute. -/
theorem reset_within_window_of_reload :
    let s := (service 1 10500).after .none [.check request, .reload [rule 60] .empty, .advance 500]
    told? (s.happening .none (.check request)).report = some (false, some "search", 71) ∧
      ∃ dec metrics, (s.happening .none (.check request)).report = .decision (.ok dec) metrics ∧
        1 ≤ dec.resetAfterSeconds ∧ dec.resetAfterSeconds ≤ 60 ∧
        dec.resetAt = 11 + dec.resetAfterSeconds ∧ dec.resetAt ≤ Word.max := by
  have hbuild : RuleSet.build [rule 1] .empty = .ok ⟨[rule 1]⟩ := rfl
  have hclock : (Clock.mk 10500).Steady
      [.check request, .reload [rule 60] .empty, .advance 500] := by decide
  intro s
  have htold : told? (s.happening .none (.check request)).report =
      some (false, some "search", 71) := by decide +kernel
  obtain ⟨dec, metrics, hreport, -, happlied, -⟩ := exists_of_told? htold
  have hrules : s.limiter.rules.rules = [rule 60] := by decide +kernel
  have hnow : s.now / 1000 = 11 := by decide +kernel
  obtain ⟨r, hr, -, hlower, hupper, hinstant, hword, -⟩ :=
    reset_within_window hbuild settings (.ofConfig .empty) Disturbance.onlyOutages_none hclock
      request dec metrics hreport (by rw [Decision.hasRule, happlied]; rfl)
  change r ∈ s.limiter.rules.rules at hr
  change dec.resetAt = s.now / 1000 + dec.resetAfterSeconds at hinstant
  rw [hrules, List.mem_singleton] at hr
  subst hr
  rw [hnow] at hinstant
  exact ⟨htold, dec, metrics, hreport, hlower, hupper, hinstant, hword⟩

open ResetInstantSample in
/-- Early and late in a bucket of five seconds the same end of it is told. -/
example :
    let s := Service.start ⟨settings, ⟨[Rule.basic "search" .address 2 5]⟩, .ofConfig .empty⟩ 10200
    let t := s.after .none [.check request, .advance 4700]
    told? (s.happening .none (.check request)).report = some (true, some "search", 15) ∧
      told? (t.happening .none (.check request)).report = some (true, some "search", 15) := by
  decide +kernel

end Admission
