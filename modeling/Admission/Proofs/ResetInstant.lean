/-
The instant of the reset, in whole seconds.

A decision tells when its rule's window frees capacity as seconds since the epoch: the
present rounded down, and the time that is left rounded up. The two roundings can lose a
second together. How much is told exactly (`add_ceilSeconds_sub`): the instant is the one
that covers the oldest entry, or one second less, and it is one less if and only if the
present lies further behind its second than the last millisecond of the entry does.
-/
import Admission.Proofs.RetryAfter

set_option autoImplicit false

namespace Admission

/-! ## Two roundings -/

/-- **The present rounded down and the rest rounded up:** together they are the whole rounded
up, or one second less. -/
theorem add_ceilSeconds_sub {now leaves : Nat} (h : now < leaves) :
    now / 1000 + ceilSeconds (leaves - now) =
      ceilSeconds leaves - if (leaves - 1) % 1000 < now % 1000 then 1 else 0 := by
  unfold ceilSeconds
  split <;> omega

/-- For an entry that leaves a whole number of seconds after it was made this depends on
the parts of a second alone. -/
theorem le_add_ceilSeconds_sub_iff {now oldest seconds : Nat} (hseconds : 0 < seconds)
    (h : now < oldest + secondsToMillis seconds) :
    oldest + secondsToMillis seconds ≤
        1000 * (now / 1000 + ceilSeconds (oldest + secondsToMillis seconds - now)) ↔
      oldest % 1000 = 0 ∨ now % 1000 < oldest % 1000 := by
  rw [add_ceilSeconds_sub h]
  unfold ceilSeconds secondsToMillis at *
  split <;> omega

/-! ## The law -/

/-- **What the instant of the reset tells of a sliding window.** A limiter with rules that
could be made serves any commands but reloads, over a clock that never goes backward,
while outages begin and end before any call. Let a check be decided with the numbers of a
sliding-window rule.

Then a log is under the rule's key, the decision counts its instants, and the oldest of
them leaves the window after the present, as far as a clock shows it. The instant that is
told covers this, rounded up to whole seconds, or is one second less, by the exact
condition. In a window that ends before the clock does it covers the oldest instant if
and only if this lies on a whole second, or the present lies nearer to its own second than
the oldest instant does to its.

If the check was denied, a later check that the rule governs with the same value is not
refused by it when the oldest instant has left, if nothing was written meanwhile; before
that, every check that asks the rule's counter and is answered is refused, as long as the
counter is not reset. -/
theorem reset_instant_covers_iff {rules : List Rule} {defaults : DefaultLimits} {set : RuleSet}
    (hbuild : RuleSet.build rules defaults = .ok set) (settings : LimiterSettings)
    (whitelist : Whitelist) {start : Nat} {d : Disturbance} (hd : d.OnlyOutages)
    {before meanwhile : List Command} {request : Request}
    (hreload : ∀ command ∈ before ++ .check request :: meanwhile, command.isReload = false)
    (hclock : (Clock.mk start).Steady (before ++ .check request :: meanwhile)) :
    let s := (Service.start ⟨settings, set, whitelist⟩ start).after d before
    let told := s.happening d (.check request)
    let s' := (s.handleAmid d (.check request)).2
    let t := s'.after d meanwhile
    ∀ dec metrics, told.report = .decision (.ok dec) metrics →
      ∀ rule ∈ set.rules, dec.appliedRule = some rule.id → rule.algorithm = .slidingWindow →
      ∃ value log oldest,
        let key := rule.logKey settings.keySpace value
        let leaves := Word.clamp (oldest + rule.window)
        told.concerns rule value = true ∧
        s'.backend.store.find? key = some (.sliding log) ∧
        dec.currentCount = log.instants.length ∧
        oldest ∈ log.instants ∧ (∀ instant ∈ log.instants, oldest ≤ instant) ∧
        s.now < leaves ∧
        dec.resetAt = ceilSeconds leaves - (if (leaves - 1) % 1000 < s.now % 1000 then 1 else 0) ∧
        (oldest + rule.window ≤ Word.max →
          (oldest + rule.window ≤ 1000 * dec.resetAt ↔
            oldest % 1000 = 0 ∨ s.now % 1000 < oldest % 1000)) ∧
        (dec.allowed = false → ∀ later, let next := t.happening d (.check later)
          (leaves ≤ t.now → Happening.Unwritten key (s'.chronicle d meanwhile) →
            next.concerns rule value = true → next.report.deniesBy rule.id = false) ∧
          (t.now < leaves → Happening.Unreset key (s'.chronicle d meanwhile) →
            (∃ x ∈ next.exchanges, x.countsUnder key = true ∧ x.IsAnswered) →
            next.report.deniesBy rule.id = true)) := by
  have hs : set.Sound := RuleSet.sound_of_build hbuild
  intro s told s' t dec metrics hreport rule hrule happlied ha
  obtain ⟨⟨hlimiter, hreachable⟩, ⟨hlimiter', hsame, hreachable'⟩, hmeanwhile, hclock'⟩ :=
    Service.reachable_around_check (l := ⟨settings, set, whitelist⟩) hs hd hreload hclock
  change s.limiter = _ at hlimiter
  change s'.limiter = _ at hlimiter'
  change s.Reachable at hreachable
  have hr : rule ∈ s.limiter.rules.rules := by rwa [hlimiter]
  obtain ⟨heardRule, hheardRule, value, o, hconcerns, hshows, x, hx, hheard⟩ :=
    Service.exists_hears_of_decision hreport (.inl (by rw [Decision.hasRule, happlied]; rfl))
  -- the rule that was heard is the one that is shown, since ids differ
  have hid : heardRule.id = rule.id := Option.some.inj (hshows.applied.symm.trans happlied)
  obtain rfl : heardRule = rule := hreachable.sound.eq_of_id hheardRule hr hid
  obtain ⟨c, log, past, oldest, rfl, hcell, hkeeps, hdescribes, -, hfull⟩ :=
    Service.exists_log_of_hears hreachable hd hr ha hx hheard
  have hspace : s.limiter.settings.keySpace = settings.keySpace := by rw [hlimiter]
  rw [hspace] at hcell
  have hleaves : Word.add oldest log.window = Word.clamp (oldest + heardRule.window) := by
    rw [hkeeps.window_eq, Word.add_clamp]
  -- the answer describes the log, so the instant is that of its oldest entry
  have hinside := hdescribes.inside
  rw [hleaves] at hinside
  have hresetAt : dec.resetAt =
      s.now / 1000 + ceilSeconds (Word.clamp (oldest + heardRule.window) - s.now) := by
    rw [hshows.resetAt, Observation.ofSliding, hdescribes.resetAfter, hleaves]
  refine ⟨value, log, oldest, hconcerns, hcell, hshows.count.trans hdescribes.count,
    List.mem_of_mem_head? hdescribes.head, hkeeps.head_le hdescribes.head, hinside,
    hresetAt.trans (add_ceilSeconds_sub hinside), ?_, ?_⟩
  · intro hword
    rw [Word.clamp_of_le hword] at hinside hresetAt
    rw [hresetAt]
    exact le_add_ceilSeconds_sub_iff (hs.window_pos _ hrule) hinside
  · intro hdenied later next
    have hr' : heardRule ∈ s'.limiter.rules.rules := by rwa [hlimiter']
    have hshuts : s'.Shuts d heardRule value (Word.clamp (oldest + heardRule.window)) := by
      rw [← hleaves]
      exact Service.shuts_of_sliding hreachable' hd hr' ha
        (by rw [hlimiter']; exact hcell) (by rwa [hsame]) hdescribes.head
        (hfull (hshows.exceeded hdenied))
    have hkey : ∀ now, s'.limiter.keyOf heardRule value now =
        heardRule.logKey settings.keySpace value := by
      intro now
      rw [Limiter.keyOf_sliding _ ha, hlimiter']
    refine ⟨?_, ?_⟩
    · intro huntil hunwritten hnext
      rw [← hkey (t.now / 1000)] at hunwritten
      exact Service.passes_after hreachable' hd hr' hshuts hmeanwhile hclock' hunwritten huntil hnext
    · rintro huntil hunreset ⟨y, hy, hcounts, hanswered⟩
      rw [← hkey (s'.now / 1000)] at hunreset
      rw [← hkey (t.now / 1000)] at hcounts
      exact Service.denies_before hreachable' hd hr' hshuts hmeanwhile hclock' hunreset huntil hy
        hcounts hanswered

/-! ## Histories -/

namespace ResetInstantSample

/-- One request in so many seconds from each address. -/
def rule (seconds : Nat) : Rule :=
  { Rule.basic "search" .address 1 seconds with algorithm := .slidingWindow }

def settings : LimiterSettings := ⟨true, false, 50, "turnstile"⟩

def request : Request := .describe "GET" "/search" "10.0.0.1"

/-- One request, and 0.6 seconds. -/
def before : List Command := [.check request, .advance 600]

/-- As long as the client is told to wait. -/
def meanwhile : List Command := [.advance 9700]

/-- A limiter with one rule. -/
def service (seconds start : Nat) : Service :=
  Service.start ⟨settings, ⟨[rule seconds]⟩, .ofConfig .empty⟩ start

/-- What a report tells: whether the request is let past, by which rule, and the instant of
the reset. -/
def told? : Report → Option (Bool × Option String × Nat)
  | .decision (.ok dec) _ => some (dec.allowed, dec.appliedRule, dec.resetAt)
  | _ => none

theorem exists_of_told? {report : Report} {told : Bool × Option String × Nat}
    (h : told? report = some told) :
    ∃ dec metrics, report = .decision (.ok dec) metrics ∧ dec.allowed = told.1 ∧
      dec.appliedRule = told.2.1 ∧ dec.resetAt = told.2.2 := by
  unfold told? at h
  split at h
  · cases h
    exact ⟨_, _, rfl, rfl, rfl, rfl⟩
  · cases h

end ResetInstantSample

open ResetInstantSample in
/-- **An instant that is too early.** A request was let through at 10.5 s by a rule with a
window of one second, so it leaves at 11.5 s. Right after it a client is refused and told
the instant 11 s; it asks again then, nobody else having asked, and is refused. -/
theorem reset_instant_early_of_search :
    let s := (service 1 10500).after .none [.check request]
    let s' := (s.handleAmid .none (.check request)).2
    let t := s'.after .none [.advance 500]
    told? (s.happening .none (.check request)).report = some (false, some "search", 11) ∧
      s'.backend.store.find? ((rule 1).logKey "turnstile" "10.0.0.1") =
        some (.sliding ⟨[10500], 1000, 11500⟩) ∧
      1000 * 11 < 10500 + (rule 1).window ∧ t.now = 1000 * 11 ∧
      Happening.Unwritten ((rule 1).logKey "turnstile" "10.0.0.1")
        (s'.chronicle .none [.advance 500]) ∧
      told? (t.happening .none (.check request)).report = some (false, some "search", 12) := by
  intro s s' t
  exact ⟨by decide +kernel, by decide +kernel, by decide +kernel, by decide +kernel,
    by decide +kernel, by decide +kernel⟩

open ResetInstantSample in
/-- At 11.3 s a client is refused since a request of 10.7 s is inside a window of ten
seconds; it is told the instant 21 s, which covers this, and is let past then. -/
theorem reset_instant_covers_of_search :
    let s := (service 10 10700).after .none before
    let s' := (s.handleAmid .none (.check request)).2
    let t := s'.after .none meanwhile
    told? (s.happening .none (.check request)).report = some (false, some "search", 21) ∧
      10700 + (rule 10).window ≤ 1000 * 21 ∧ t.now = 1000 * 21 ∧
      (t.happening .none (.check request)).report.deniesBy "search" = false := by
  have hbuild : RuleSet.build [rule 10] .empty = .ok ⟨[rule 10]⟩ := rfl
  have hreload : ∀ command ∈ before ++ .check request :: meanwhile, command.isReload = false := by
    decide
  have hclock : (Clock.mk 10700).Steady (before ++ .check request :: meanwhile) := by decide
  intro s s' t
  have htold : told? (s.happening .none (.check request)).report =
      some (false, some "search", 21) := by decide +kernel
  have hvalue : (s.happening .none (.check request)).concerns (rule 10) "10.0.0.1" = true := by
    decide +kernel
  have hstored : s'.backend.store.find? ((rule 10).logKey "turnstile" "10.0.0.1") =
      some (.sliding ⟨[10700], 10000, 20700⟩) := by decide +kernel
  obtain ⟨dec, metrics, hreport, hdenied, happlied, hinstant⟩ := exists_of_told? htold
  obtain ⟨value, log, oldest, hconcerns, hlog, -, hmem, -, -, -, hcovers, hlater⟩ :=
    reset_instant_covers_iff hbuild settings (.ofConfig .empty) Disturbance.onlyOutages_none hreload
      hclock dec metrics hreport (rule 10) List.mem_cons_self happlied rfl
  obtain rfl : value = "10.0.0.1" := Happening.eq_of_concerns hconcerns hvalue
  obtain rfl : log = ⟨[10700], 10000, 20700⟩ := by
    simpa using hlog.symm.trans hstored
  obtain rfl : oldest = 10700 := List.mem_singleton.1 hmem
  rw [hinstant] at hcovers
  refine ⟨htold, (hcovers (by decide)).2 (.inr (by decide +kernel)), by decide +kernel, ?_⟩
  exact (hlater hdenied request).1 (by decide +kernel) (by decide +kernel) (by decide +kernel)

end Admission
