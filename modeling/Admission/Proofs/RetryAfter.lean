/-
A client that is told when to come back is told the truth.

A refusal is answered with whole seconds, while counters live by the millisecond. The
answer rounds up, so a client that waits that long finds room (`Service.passes_after`),
unless others have used it up; and one that comes back a whole second early never does
(`Service.denies_before`), whoever else comes in between. So the number of seconds is the
least that could have been told (`retry_after_is_honest`).
-/
import Admission.Proofs.Lockout

set_option autoImplicit false

namespace Admission

/-! ## Seconds to wait -/

/-- Rounding up covers the time to wait. -/
theorem le_mul_max_ceilSeconds (millis : Nat) : millis ≤ 1000 * max (ceilSeconds millis) 1 := by
  have hround := millis_le_ceilSeconds millis
  omega

/-- And it adds no whole second. -/
theorem mul_max_ceilSeconds_sub_one_lt {millis : Nat} (hpos : 0 < millis) :
    1000 * (max (ceilSeconds millis) 1 - 1) < millis := by
  have hround := ceilSeconds_lt millis
  omega

namespace Service

variable {d : Disturbance} {s : Service} {commands : List Command} {rule : Rule} {value : String}
variable {until_ : Nat} {request : Request}

/-- **Whoever comes when a rule has opened again is not refused by it,** if nothing was
written under the key that it uses then. -/
theorem passes_after (h : s.Reachable) (hd : d.OnlyOutages)
    (hr : rule ∈ s.limiter.rules.rules) (hshuts : s.Shuts d rule value until_)
    (hreload : ∀ command ∈ commands, command.isReload = false)
    (hclock : s.backend.clock.Steady commands)
    (hunwritten : Happening.Unwritten
      (s.limiter.keyOf rule value ((s.after d commands).now / 1000)) (s.chronicle d commands))
    (huntil : until_ ≤ (s.after d commands).now)
    (hconcerns : ((s.after d commands).happening d (.check request)).concerns rule value = true) :
    ((s.after d commands).happening d (.check request)).report.deniesBy rule.id = false := by
  have hlimiter : (s.after d commands).limiter = s.limiter := limiter_after hreload
  rw [← hlimiter] at hr
  rw [Bool.eq_false_iff]
  intro hdenies
  have hfull := le_read_of_denies (h.after hd hreload hclock) hd hr hconcerns hdenies
  rw [hlimiter] at hfull
  exact absurd (hshuts.opens commands hclock hunwritten huntil) (not_lt.2 hfull)

/-- **Whoever comes before is refused,** whatever happens in between, as long as the
counter is not reset. -/
theorem denies_before (h : s.Reachable) (hd : d.OnlyOutages)
    (hr : rule ∈ s.limiter.rules.rules) (hshuts : s.Shuts d rule value until_)
    (hreload : ∀ command ∈ commands, command.isReload = false)
    (hclock : s.backend.clock.Steady commands)
    (hunreset : Happening.Unreset (s.limiter.keyOf rule value (s.now / 1000))
      (s.chronicle d commands))
    (huntil : (s.after d commands).now < until_) {x : Exchange}
    (hx : x ∈ ((s.after d commands).happening d (.check request)).exchanges)
    (hcounts : x.countsUnder
      (s.limiter.keyOf rule value ((s.after d commands).now / 1000)) = true)
    (hanswered : x.IsAnswered) :
    ((s.after d commands).happening d (.check request)).report.deniesBy rule.id = true := by
  have hlimiter : (s.after d commands).limiter = s.limiter := limiter_after hreload
  have hfull := hshuts.closed commands hreload hclock hunreset huntil
  rw [← hlimiter] at hr hcounts hfull
  exact (deniesBy_iff_of_counts (h.after hd hreload hclock) hd hr hx hcounts hanswered).2 hfull

end Service

/-! ## The law -/

/-- **A client is told the truth about when to come back.** A limiter with rules that could
be made serves any commands but reloads, over a clock that never goes backward, while
outages begin and end before any call. Let a check be denied.

Then some rule in force is named as the one that refused, it governs the request with some
value, and a number of seconds is told. A later check that the rule governs with the same
value is not refused by it if that many seconds have passed and nothing was written
meanwhile under the key that the rule uses then for the value. If a whole second is
missing, every check that asks the rule's counter for the value and is answered is
refused, whatever other checks there were, as long as the counter was not reset. -/
theorem retry_after_is_honest {rules : List Rule} {defaults : DefaultLimits} {set : RuleSet}
    (hbuild : RuleSet.build rules defaults = .ok set) (settings : LimiterSettings)
    (whitelist : Whitelist) {start : Nat} {d : Disturbance} (hd : d.OnlyOutages)
    {before meanwhile : List Command} {request : Request}
    (hreload : ∀ command ∈ before ++ .check request :: meanwhile, command.isReload = false)
    (hclock : (Clock.mk start).Steady (before ++ .check request :: meanwhile)) :
    let s := (Service.start ⟨settings, set, whitelist⟩ start).after d before
    let refused := s.happening d (.check request)
    let s' := (s.handleAmid d (.check request)).2
    let t := s'.after d meanwhile
    let key (rule : Rule) (value : String) (now : Nat) :=
      Limiter.keyOf ⟨settings, set, whitelist⟩ rule value (now / 1000)
    ∀ dec metrics, refused.report = .decision (.ok dec) metrics → dec.allowed = false →
      ∃ rule ∈ set.rules, ∃ value seconds, dec.appliedRule = some rule.id ∧
        refused.concerns rule value = true ∧ dec.retryAfterSeconds = some seconds ∧
        ∀ later, let next := t.happening d (.check later)
          (s.now + 1000 * seconds ≤ t.now →
            Happening.Unwritten (key rule value t.now) (s'.chronicle d meanwhile) →
            next.concerns rule value = true → next.report.deniesBy rule.id = false) ∧
          (t.now ≤ s.now + 1000 * (seconds - 1) →
            Happening.Unreset (key rule value s.now) (s'.chronicle d meanwhile) →
            (∃ x ∈ next.exchanges, x.countsUnder (key rule value t.now) = true ∧ x.IsAnswered) →
            next.report.deniesBy rule.id = true) := by
  have hs : set.Sound := RuleSet.sound_of_build hbuild
  intro s refused s' t key dec metrics hreport hdenied
  obtain ⟨⟨hlimiter, hreachable⟩, ⟨hlimiter', hsame, hreachable'⟩, hmeanwhile, hclock'⟩ :=
    Service.reachable_around_check (l := ⟨settings, set, whitelist⟩) hs hd hreload hclock
  change s.limiter = _ at hlimiter
  change s'.limiter = _ at hlimiter'
  -- the refusal was heard from a rule, which is shut from then on for as long as it says
  obtain ⟨rule, hr, value, o, hconcerns, hshows, x, hx, hheard⟩ :=
    Service.exists_hears_of_decision hreport (.inr hdenied)
  have ho : o.exceeded = true := hshows.exceeded hdenied
  have hretry := hshows.retryAfter
  rw [if_pos ho] at hretry
  obtain ⟨hpos, hshuts⟩ := Service.shuts_of_hears hreachable hd hr hx hheard ho
  rw [hlimiter] at hr
  have hr' : rule ∈ s'.limiter.rules.rules := by rwa [hlimiter']
  have hkey : ∀ now, key rule value now = s'.limiter.keyOf rule value (now / 1000) := by
    intro now
    rw [hlimiter']
  refine ⟨rule, hr, value, _, hshows.applied, hconcerns, hretry, ?_⟩
  intro later next
  -- what is told in seconds covers the milliseconds, and is less than a second longer
  refine ⟨?_, ?_⟩
  · intro hwaited hunwritten hnext
    rw [hkey] at hunwritten
    have huntil : s.now + o.resetAfter ≤ t.now := by
      have hround := le_mul_max_ceilSeconds o.resetAfter
      omega
    exact Service.passes_after hreachable' hd hr' hshuts hmeanwhile hclock' hunwritten huntil hnext
  · rintro hhasty hunreset ⟨y, hy, hcounts, hanswered⟩
    rw [hkey] at hunreset hcounts
    rw [← hsame] at hunreset
    have huntil : t.now < s.now + o.resetAfter := by
      have hround := mul_max_ceilSeconds_sub_one_lt hpos
      omega
    exact Service.denies_before hreachable' hd hr' hshuts hmeanwhile hclock' hunreset huntil hy
      hcounts hanswered

/-! ## A history -/

namespace RetryAfterSample

/-- One request in any ten seconds from each address. -/
def rule : Rule := { Rule.basic "search" .address 1 10 with algorithm := .slidingWindow }

def settings : LimiterSettings := ⟨true, false, 50, "turnstile"⟩

def request : Request := .describe "GET" "/search" "10.0.0.1"

/-- One request, and 1.8 seconds. -/
def before : List Command := [.check request, .advance 1800]

/-- Eight seconds, in which the client asks once more and the store is swept. -/
def hasty : List Command := [.advance 3000, .check request, .purge, .advance 5000]

/-- Nine seconds, in which the usage is looked at. -/
def patient : List Command := [.advance 4000, .status request, .advance 5000]

/-- What a report tells: whether the request is let past, and the seconds to wait. -/
def told? : Report → Option (Bool × Option Nat)
  | .decision (.ok dec) _ => some (dec.allowed, dec.retryAfterSeconds)
  | _ => none

theorem exists_of_told? {report : Report} {told : Bool × Option Nat}
    (h : told? report = some told) :
    ∃ dec metrics, report = .decision (.ok dec) metrics ∧ dec.allowed = told.1 ∧
      dec.retryAfterSeconds = told.2 := by
  unfold told? at h
  split at h
  · cases h
    exact ⟨_, _, rfl, rfl, rfl⟩
  · cases h

end RetryAfterSample

open RetryAfterSample in
/-- The oldest request leaves the window 8.2 seconds after the refusal, which is told as
nine: after eight seconds the client is refused, after nine it is not. -/
theorem retry_after_is_honest_of_search :
    let s := (Service.start ⟨settings, ⟨[rule]⟩, .ofConfig .empty⟩ 60000).after .none before
    let s' := (s.handleAmid .none (.check request)).2
    told? (s.happening .none (.check request)).report = some (false, some 9) ∧
      ((s'.after .none hasty).happening .none (.check request)).report.deniesBy rule.id = true ∧
      ((s'.after .none patient).happening .none (.check request)).report.deniesBy rule.id =
        false := by
  have hbuild : RuleSet.build [rule] .empty = .ok ⟨[rule]⟩ := rfl
  intro s s'
  have htold : told? (s.happening .none (.check request)).report = some (false, some 9) := by
    decide +kernel
  have hvalue : (s.happening .none (.check request)).concerns rule "10.0.0.1" = true := by
    decide +kernel
  obtain ⟨dec, metrics, hreport, hdenied, hseconds⟩ := exists_of_told? htold
  refine ⟨htold, ?_, ?_⟩
  · have hreload : ∀ command ∈ before ++ .check request :: hasty, command.isReload = false := by
      decide
    have hclock : (Clock.mk 60000).Steady (before ++ .check request :: hasty) := by decide
    obtain ⟨r, hr, value, seconds, -, hconcerns, hnine, h⟩ :=
      retry_after_is_honest hbuild settings (.ofConfig .empty) Disturbance.onlyOutages_none hreload
        hclock dec metrics hreport hdenied
    obtain rfl : r = rule := List.mem_singleton.1 hr
    obtain rfl : value = "10.0.0.1" := Happening.eq_of_concerns hconcerns hvalue
    obtain rfl : seconds = 9 := Option.some.inj (hnine.symm.trans hseconds)
    exact (h request).2 (by decide +kernel) (by decide +kernel) (by decide +kernel)
  · have hreload : ∀ command ∈ before ++ .check request :: patient, command.isReload = false := by
      decide
    have hclock : (Clock.mk 60000).Steady (before ++ .check request :: patient) := by decide
    obtain ⟨r, hr, value, seconds, -, hconcerns, hnine, h⟩ :=
      retry_after_is_honest hbuild settings (.ofConfig .empty) Disturbance.onlyOutages_none hreload
        hclock dec metrics hreport hdenied
    obtain rfl : r = rule := List.mem_singleton.1 hr
    obtain rfl : value = "10.0.0.1" := Happening.eq_of_concerns hconcerns hvalue
    obtain rfl : seconds = 9 := Option.some.inj (hnine.symm.trans hseconds)
    exact (h request).1 (by decide +kernel) (by decide +kernel) (by decide +kernel)

end Admission
