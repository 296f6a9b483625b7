/-
Fixed windows admit no more than their limit.

Two clocks are at work. The bucket in a counter's key ends at a multiple of the
window, and the counter itself lives for one window from its first increment. The
second never ends before the first (`Rule.bucketDeadline_le`), so as long as its
bucket lasts a counter is not begun anew, and the counts that the store answers are
1, 2, 3 and so on (`Store.Serves.tallied`). The bound on what is allowed is then a
matter of counting (`fixed_window_admission`).
-/
import Admission.Proofs.Verdict

set_option autoImplicit false

namespace Admission

/-! ## Buckets -/

/-- The text of the key under which a rule counts for a value in one bucket. -/
def Rule.bucketKey (r : Rule) (space value : String) (bucket : Nat) : String :=
  (CounterKey.mk r.id r.dimension value (some bucket)).render space

/-- The bucket of a rule in which a time lies. -/
def Rule.bucketAt (r : Rule) (now : Nat) : Nat := now / 1000 / r.windowSeconds

/-- When a bucket is over, as far as a clock shows it. -/
def Rule.bucketDeadline (r : Rule) (bucket : Nat) : Nat := Word.clamp ((bucket + 1) * r.window)

namespace Rule

variable {r : Rule} {now : Nat}

theorem window_pos (h : 0 < r.windowSeconds) : 0 < r.window := by
  rw [window, secondsToMillis]
  omega

/-- Buckets are counted in windows since the epoch. -/
theorem bucketAt_eq (r : Rule) (now : Nat) : r.bucketAt now = now / r.window := by
  rw [bucketAt, Nat.div_div_eq_div_mul, window, secondsToMillis, Nat.mul_comm]

/-- The key of a rule at a time is that of the bucket in which the time lies. -/
theorem forValue_fixed (ha : r.algorithm = .fixedWindow) (hw : 0 < r.windowSeconds)
    (value : String) :
    CounterKey.forValue r value (now / 1000) =
      ⟨r.id, r.dimension, value, some (r.bucketAt now)⟩ := by
  have hmax : max r.windowSeconds 1 = r.windowSeconds := by omega
  rw [CounterKey.forValue, CounterKey.bucketOf, ha, hmax, bucketAt]

theorem lt_bucketDeadline (hw : 0 < r.windowSeconds) (hnow : now < Word.max) :
    now < r.bucketDeadline (r.bucketAt now) := by
  have hbucket : now < r.window * (now / r.window + 1) := Nat.lt_mul_div_succ now (window_pos hw)
  rw [Nat.mul_comm, ← bucketAt_eq] at hbucket
  exact Nat.lt_min.2 ⟨hbucket, hnow⟩

/-- **A counter that is begun in a bucket outlives it.** -/
theorem bucketDeadline_le (r : Rule) (now : Nat) :
    r.bucketDeadline (r.bucketAt now) ≤ Word.add now (Word.clamp r.window) := by
  have hstart : now / r.window * r.window ≤ now := Nat.div_mul_le_self now r.window
  rw [bucketDeadline, bucketAt_eq, Nat.add_mul, Nat.one_mul, Word.add, Word.clamp, Word.clamp,
    Word.clamp]
  omega

/-- An interval no longer than the window meets two buckets at most. -/
theorem bucketAt_of_mem_interval (hw : 0 < r.windowSeconds) {t : Nat} (hle : t ≤ now)
    (hlt : now < t + r.window) :
    r.bucketAt now = r.bucketAt t ∨ r.bucketAt now = r.bucketAt t + 1 := by
  have hpos : 0 < r.window := window_pos hw
  have hlow : t / r.window ≤ now / r.window := Nat.div_le_div_right hle
  have hhigh : now / r.window ≤ (t + r.window) / r.window := Nat.div_le_div_right hlt.le
  rw [Nat.add_div_right t hpos] at hhigh
  rw [bucketAt_eq, bucketAt_eq]
  omega

end Rule

/-! ## A counter in its bucket -/

/-- **A cell tallies a bucket:** until the deadline it holds the number of requests
counted so far, in a counter that lives at least that long. -/
def Tallied (deadline n now : Nat) (cell : Option Entry) : Prop :=
  now < deadline → n = 0 ∧ Faded now cell ∨
    ∃ c, cell = some (.fixed c) ∧ c.count = n ∧ deadline ≤ c.expiresAt

namespace Tallied

variable {deadline n now : Nat} {cell after : Option Entry}

theorem none (deadline now : Nat) : Tallied deadline 0 now .none :=
  fun _ => .inl ⟨rfl, Faded.none now⟩

theorem later {later : Nat} (h : Tallied deadline n now cell) (hle : now ≤ later) :
    Tallied deadline n later cell := by
  intro hlater
  rcases h (hle.trans_lt hlater) with ⟨hn, hf⟩ | hc
  · exact .inl ⟨hn, hf.later hle⟩
  · exact .inr hc

/-- A counter does not fade before the deadline. -/
theorem fades (h : Tallied deadline n now cell) (hf : Fades now cell after) :
    Tallied deadline n now after := by
  intro hnow
  rcases h hnow with ⟨hn, hfaded⟩ | ⟨c, rfl, hcount, hexpires⟩
  · exact .inl ⟨hn, hf.faded hfaded⟩
  · have halive : (Entry.fixed c).isExpired now = false :=
      FixedCounter.isExpired_eq_false (hnow.trans_le hexpires)
    exact .inr ⟨c, hf.eq_of_alive halive, hcount, hexpires⟩

end Tallied

namespace Store

variable {deadline n now later : Nat} {s s' : Store} {key : String}

/-- **Counting in a bucket:** the answer is one more than the tally, which goes up by
one. -/
theorem tallied_incrementFixed {window : Nat} (hd : s.Distinct) (hnow : now < deadline)
    (hwindow : deadline ≤ Word.add now (Word.clamp window))
    (h : Tallied deadline n now (s.find? key)) :
    (s.incrementFixed now key window).1.count = n + 1 ∧
      Tallied deadline (n + 1) now ((s.incrementFixed now key window).2.find? key) := by
  -- before the deadline a counter is alive and gone on with; where there is none, a new
  -- one lives past the deadline
  obtain ⟨c, hlive, hcount, hexpires⟩ :
      ∃ c, s.liveFixed now key window = c ∧ c.count = n ∧ deadline ≤ c.expiresAt := by
    rcases h hnow with ⟨rfl, hfaded⟩ | ⟨c, hc, hcount, hexpires⟩
    · exact ⟨_, liveFixed_of_faded hfaded window, rfl, hwindow⟩
    · have halive : c.isExpired now = false :=
        FixedCounter.isExpired_eq_false (hnow.trans_le hexpires)
      exact ⟨c, liveFixed_of_alive hc halive window, hcount, hexpires⟩
  have htally : Tallied deadline (n + 1) now (some (.fixed c.increment)) :=
    fun _ => .inr ⟨c.increment, rfl, congrArg (· + 1) hcount, hexpires⟩
  rw [incrementFixed, hlive]
  exact ⟨congrArg (· + 1) hcount, htally.fades (fades_countWrite_put hd now key _)⟩

/-- **What is asked about a bucket:** under its key a request is counted before the
deadline, with a window that reaches past it, or the counter is read, or a reset
fails. -/
def BucketCall (key : String) (deadline : Nat) (j : Nat × Exchange) : Prop :=
  j.2.call.key = key →
    (∃ window, j.2.call = .incrementFixed key window ∧ j.1 < deadline ∧
        deadline ≤ Word.add j.1 (Word.clamp window)) ∨
      j.2.call = .read key ∨ j.2.call = .reset key ∧ ¬ j.2.IsAnswered

/-- The counts that were answered under a key, in order. -/
def counts (key : String) (js : List (Nat × Exchange)) : List Nat :=
  js.filterMap fun j => (j.2.fixedCount? key).map FixedCount.count

/-- **The counts of a bucket go up one by one.** -/
theorem Serves.tallied {js : List (Nat × Exchange)} (h : Serves now s js later s')
    (hd : s.Distinct) (hjs : ∀ j ∈ js, BucketCall key deadline j)
    (ht : Tallied deadline n now (s.find? key)) :
    ∃ m, counts key js = List.range' (n + 1) m ∧
      Tallied deadline (n + m) later (s'.find? key) := by
  induction h generalizing n with
  | nil => exact ⟨0, rfl, ht⟩
  | @answered now later s s' call js _ ih =>
    rw [List.forall_mem_cons] at hjs
    -- a call under the key is an increment or looks; under another key the cell may fade
    by_cases hkey : call.key = key
    · rcases hjs.1 hkey with ⟨window, hcall, hnow, hwindow⟩ | hcall | ⟨-, hanswered⟩
      · dsimp only at hcall
        subst hcall
        obtain ⟨hcount, ht⟩ := tallied_incrementFixed hd hnow hwindow ht
        obtain ⟨m, hcounts, hlater⟩ := ih (hd.answer now _) hjs.2 ht
        refine ⟨m + 1, ?_, by rwa [Nat.add_assoc, Nat.add_comm 1 m] at hlater⟩
        have hhead : Exchange.fixedCount? key ⟨.incrementFixed key window,
            .answered (s.answer now (.incrementFixed key window)).1⟩ =
              some (s.incrementFixed now key window).1 := if_pos rfl
        rw [counts, List.filterMap_cons, hhead, Option.map_some, hcount, List.range'_succ,
          ← hcounts]
        rfl
      · dsimp only at hcall
        subst hcall
        exact ih (hd.answer now _) hjs.2 ht
      · exact absurd rfl hanswered
    · have hhead : Exchange.fixedCount? key ⟨call, .answered (s.answer now call).1⟩ = none :=
        Exchange.fixedCount?_of_ne hkey
      obtain ⟨m, hcounts, hlater⟩ :=
        ih (hd.answer now call) hjs.2 (ht.fades (fades_answer_of_ne hd now hkey))
      refine ⟨m, ?_, hlater⟩
      rw [counts, List.filterMap_cons, hhead, Option.map_none]
      exact hcounts
  | refused hx _ ih =>
    rw [List.forall_mem_cons] at hjs
    obtain ⟨m, hcounts, hlater⟩ := ih hd hjs.2 ht
    refine ⟨m, ?_, hlater⟩
    rw [counts, List.filterMap_cons, Exchange.fixedCount?_of_not_answered hx, Option.map_none]
    exact hcounts
  | swept _ ih => exact ih (hd.sweep _) hjs (ht.fades (fades_sweep hd _ key))
  | waited hle _ ih => exact ih hd hjs (ht.later hle)

end Store

/-! ## What a limiter asks about a bucket -/

namespace Limiter

variable {l : Limiter} {rule : Rule} {value : String} {bucket now : Nat}

/-- Under the key of a bucket requests are counted for its rule alone, and only while
the bucket lasts. -/
theorem Asks.of_bucketKey (hs : l.rules.Sound) (hr : rule ∈ l.rules.rules)
    (ha : rule.algorithm = .fixedWindow) {call : Call} (h : l.Asks now call)
    (hkey : call.key = rule.bucketKey l.settings.keySpace value bucket) :
    call = .incrementFixed call.key rule.window ∧ rule.bucketAt now = bucket ∨
      call = .read call.key ∨ call = .reset call.key := by
  rcases h.of_key hkey with ⟨asked, hasked, hfor, hcall⟩ | hcall
  · have hsame : asked = rule := hs.eq_of_id hasked hr (congrArg CounterKey.ruleId hfor)
    subst hsame
    rw [Rule.forValue_fixed ha (hs.window_pos _ hr)] at hfor
    -- the key holds the bucket of the time at which it is made
    have hbucket : asked.bucketAt now = bucket := Option.some.inj (congrArg CounterKey.bucket hfor)
    rcases hcall with ⟨-, hcall⟩ | ⟨hsliding, -⟩
    · exact .inl ⟨hcall, hbucket⟩
    · rw [ha] at hsliding
      cases hsliding
  · exact .inr hcall

theorem bucketCall_of_asks (hs : l.rules.Sound) (hr : rule ∈ l.rules.rules)
    (ha : rule.algorithm = .fixedWindow) (hnow : now < Word.max) {x : Exchange}
    (h : l.Asks now x.call)
    (hreset : ¬ x.resets (rule.bucketKey l.settings.keySpace value bucket)) :
    Store.BucketCall (rule.bucketKey l.settings.keySpace value bucket)
      (rule.bucketDeadline bucket) (now, x) := by
  intro hkey
  rcases h.of_bucketKey hs hr ha hkey with ⟨hcall, rfl⟩ | hcall | hcall
  · rw [hkey] at hcall
    exact .inl ⟨rule.window, hcall, rule.lt_bucketDeadline (hs.window_pos _ hr) hnow,
      rule.bucketDeadline_le now⟩
  · rw [hkey] at hcall
    exact .inr (.inl hcall)
  · rw [hkey] at hcall
    exact .inr (.inr ⟨hcall, fun hanswered => hreset ⟨hcall, hanswered⟩⟩)

end Limiter

/-! ## Counting -/

/-- Of consecutive numbers as many are within a bound as the bound leaves room for. -/
theorem countP_range'_eq (limit first m : Nat) :
    (List.range' first m).countP (· ≤ limit) = min m (limit + 1 - first) := by
  induction m generalizing first with
  | zero => exact (Nat.zero_min _).symm
  | succ m ih =>
    rw [List.range'_succ, List.countP_cons, ih]
    by_cases hfirst : first ≤ limit
    · rw [if_pos (decide_eq_true hfirst)]
      omega
    · rw [if_neg (by simpa using hfirst)]
      omega

/-- What is one of two things happens no more often than the two together. -/
theorem countP_le_add {α : Type} {p q r : α → Bool} {l : List α}
    (h : ∀ a ∈ l, p a = true → q a = true ∨ r a = true) :
    l.countP p ≤ l.countP q + l.countP r := by
  induction l with
  | nil => exact Nat.zero_le _
  | cons a rest ih =>
    rw [List.forall_mem_cons] at h
    have hrest := ih h.2
    rw [List.countP_cons, List.countP_cons, List.countP_cons]
    by_cases hp : p a = true
    · rcases h.1 hp with hq | hr
      · rw [if_pos hp, if_pos hq]
        omega
      · rw [if_pos hp, if_pos hr]
        omega
    · rw [if_neg hp]
      omega

/-- Counting the counts under a key that are within a bound. -/
theorem Store.countP_counts (key : String) (limit : Nat) (js : List (Nat × Exchange)) :
    (counts key js).countP (· ≤ limit) =
      js.countP fun j => (j.2.fixedCount? key).any (·.count ≤ limit) := by
  rw [counts, List.countP_filterMap]
  congr 1
  funext j
  cases j.2.fixedCount? key <;> rfl

/-! ## Histories -/

namespace Service

variable {d : Disturbance} {s : Service} {commands : List Command} {rule : Rule}
variable {value : String} {bucket : Nat}

/-- **A bucket of a rule over a history:** if its counter is never reset, the counts
go up one by one from where the tally stood. -/
theorem counts_of_bucket (hd : d.OnlyOutages)
    (hreload : ∀ command ∈ commands, command.isReload = false)
    (hclock : s.backend.clock.Steady commands) (hs : s.limiter.rules.Sound)
    (hdistinct : s.backend.store.Distinct) (hr : rule ∈ s.limiter.rules.rules)
    (ha : rule.algorithm = .fixedWindow) {n : Nat}
    (htally : Tallied (rule.bucketDeadline bucket) n s.now
      (s.backend.store.find? (rule.bucketKey s.limiter.settings.keySpace value bucket)))
    (hunreset : Happening.Unreset (rule.bucketKey s.limiter.settings.keySpace value bucket)
      (s.chronicle d commands)) :
    ∃ m, Store.counts (rule.bucketKey s.limiter.settings.keySpace value bucket)
        (Happening.journal (s.chronicle d commands)) = List.range' (n + 1) m ∧
      Tallied (rule.bucketDeadline bucket) (n + m) (s.after d commands).now
        ((s.after d commands).backend.store.find?
          (rule.bucketKey s.limiter.settings.keySpace value bucket)) := by
  refine (chronicle_serves hd hclock).tallied hdistinct ?_ htally
  intro j hj
  obtain ⟨h, hh, x, hx, rfl⟩ := Happening.mem_journal.1 hj
  have hnow : h.before.now < Word.max := now_lt_of_mem_chronicle hd hclock hh
  exact Limiter.bucketCall_of_asks hs hr ha hnow (asks_of_mem_chronicle hreload hs hh x hx)
    (hunreset h hh x hx)

/-- **A count under the key of a bucket** was answered to a check in that bucket which
the rule governs with the value, and the rule denies it if the count is above its
limit. -/
theorem verdict_of_fixedCount (hreload : ∀ command ∈ commands, command.isReload = false)
    (hs : s.limiter.rules.Sound) (hr : rule ∈ s.limiter.rules.rules)
    (ha : rule.algorithm = .fixedWindow) {h : Happening} (hh : h ∈ s.chronicle d commands)
    {x : Exchange} (hx : x ∈ h.exchanges) {c : FixedCount}
    (hc : x.fixedCount? (rule.bucketKey s.limiter.settings.keySpace value bucket) = some c) :
    h.concerns rule value = true ∧ rule.bucketAt h.before.now = bucket ∧
      (h.report.deniesBy rule.id = true ↔ rule.limit < c.count) := by
  obtain ⟨t, command, ht, rfl⟩ := exists_of_mem_chronicle hreload hh
  rw [← ht] at hs hr hc
  obtain ⟨window, hcall⟩ := Exchange.call_of_fixedCount? hc
  have hkey : x.call.key = rule.bucketKey t.limiter.settings.keySpace value bucket := by
    rw [hcall, Call.key]
  have hcounts : x.call.isIncrement = true := by rw [hcall, Call.isIncrement]
  have hbucket : rule.bucketAt t.now = bucket := by
    rcases (happening_asks hs command x hx).of_bucketKey hs hr ha hkey with
      ⟨-, hbucket⟩ | hread | hreset
    · exact hbucket
    · rw [hcall] at hread
      cases hread
    · rw [hcall] at hreset
      cases hreset
  rw [← hbucket, Rule.bucketKey, ← Rule.forValue_fixed ha (hs.window_pos _ hr)] at hkey hc
  obtain ⟨hconcerns, heard, hheard, hdenies⟩ := hears_of_counts hs hr hx hcounts hkey
  refine ⟨hconcerns, hbucket, ?_⟩
  rw [hdenies _ (hheard.eq_ofFixed hc), Observation.ofFixed, decide_eq_true_iff]

/-- An allowance by the rules leaves a count within the limit. -/
theorem exists_fixedCount_of_admits (hs : s.limiter.rules.Sound)
    (hr : rule ∈ s.limiter.rules.rules) (ha : rule.algorithm = .fixedWindow) {command : Command}
    {excused : List String} (hexcused : "disabled" ∈ excused ∧ "whitelisted" ∈ excused)
    (hfail : s.limiter.settings.failOpen = false ∨ "store_failure" ∈ excused)
    (h : (s.happening d command).admits rule value excused = true) :
    ∃ x ∈ (s.happening d command).exchanges, ∃ c,
      x.fixedCount? (rule.bucketKey s.limiter.settings.keySpace value (rule.bucketAt s.now)) =
        some c ∧ c.count ≤ rule.limit := by
  obtain ⟨x, hx, o, hheard, ho⟩ := exists_hears_of_allows hexcused hfail h
  rw [Rule.forValue_fixed ha (hs.window_pos _ hr)] at hheard
  obtain ⟨c, hc, rfl⟩ := hheard.exists_fixedCount ha
  refine ⟨x, hx, c, hc, ?_⟩
  rwa [Observation.ofFixed, decide_eq_false_iff_not, not_lt] at ho

/-- Whoever is let past by the rules in a bucket was counted in it, so there are no
more of them than the limit. -/
theorem countP_admits_le (hd : d.OnlyOutages)
    (hreload : ∀ command ∈ commands, command.isReload = false)
    (hclock : s.backend.clock.Steady commands) (hs : s.limiter.rules.Sound)
    (hstore : s.backend.store = Store.empty) (hr : rule ∈ s.limiter.rules.rules)
    (ha : rule.algorithm = .fixedWindow) {excused : List String}
    (hexcused : "disabled" ∈ excused ∧ "whitelisted" ∈ excused)
    (hfail : s.limiter.settings.failOpen = false ∨ "store_failure" ∈ excused)
    (hunreset : Happening.Unreset (rule.bucketKey s.limiter.settings.keySpace value bucket)
      (s.chronicle d commands)) :
    (s.chronicle d commands).countP (fun h => h.admits rule value excused &&
      rule.bucketAt h.before.now == bucket) ≤ rule.limit := by
  have htally : Tallied (rule.bucketDeadline bucket) 0 s.now
      (s.backend.store.find? (rule.bucketKey s.limiter.settings.keySpace value bucket)) := by
    rw [hstore]
    exact Tallied.none _ _
  have hdistinct : s.backend.store.Distinct := by
    rw [hstore]
    exact Store.distinct_empty
  obtain ⟨m, hcounts, -⟩ :=
    counts_of_bucket hd hreload hclock hs hdistinct hr ha htally hunreset
  -- the counts are the numbers from one on, so as many are within the limit as it says
  have hbound := (countP_range'_eq rule.limit 1 m).trans_le (Nat.min_le_right _ _)
  rw [← Nat.zero_add 1, ← hcounts, Store.countP_counts] at hbound
  refine (Happening.countP_le_countP_journal ?_).trans (hbound.trans (Nat.le_of_eq (by omega)))
  intro h hh hadmits
  rw [Bool.and_eq_true, beq_iff_eq] at hadmits
  obtain ⟨hadmits, rfl⟩ := hadmits
  obtain ⟨t, command, ht, rfl⟩ := exists_of_mem_chronicle hreload hh
  rw [← ht] at hs hr hfail ⊢
  obtain ⟨x, hx, c, hc, hle⟩ := exists_fixedCount_of_admits hs hr ha hexcused hfail hadmits
  refine ⟨x, hx, ?_⟩
  change (x.fixedCount? (rule.bucketKey t.limiter.settings.keySpace value
    (rule.bucketAt t.now))).any _ = true
  rw [hc]
  exact decide_eq_true hle

/-- An interval as long as the window meets two buckets, so twice the limit is the
most that is let past in it. -/
theorem countP_admits_interval_le (hd : d.OnlyOutages)
    (hreload : ∀ command ∈ commands, command.isReload = false)
    (hclock : s.backend.clock.Steady commands) (hs : s.limiter.rules.Sound)
    (hstore : s.backend.store = Store.empty) (hr : rule ∈ s.limiter.rules.rules)
    (ha : rule.algorithm = .fixedWindow) {excused : List String}
    (hexcused : "disabled" ∈ excused ∧ "whitelisted" ∈ excused)
    (hfail : s.limiter.settings.failOpen = false ∨ "store_failure" ∈ excused) (t : Nat)
    (hunreset : ∀ b, b = rule.bucketAt t ∨ b = rule.bucketAt t + 1 →
      Happening.Unreset (rule.bucketKey s.limiter.settings.keySpace value b)
        (s.chronicle d commands)) :
    (s.chronicle d commands).countP (fun h => h.admits rule value excused &&
      decide (t ≤ h.before.now ∧ h.before.now < t + rule.window)) ≤ 2 * rule.limit := by
  have hbucket : ∀ b, b = rule.bucketAt t ∨ b = rule.bucketAt t + 1 →
      (s.chronicle d commands).countP (fun h => h.admits rule value excused &&
        rule.bucketAt h.before.now == b) ≤ rule.limit :=
    fun b hb => countP_admits_le hd hreload hclock hs hstore hr ha hexcused hfail (hunreset b hb)
  have hfirst := hbucket _ (.inl rfl)
  have hsecond := hbucket _ (.inr rfl)
  refine (countP_le_add ?_).trans ((Nat.add_le_add hfirst hsecond).trans (by omega))
  intro h _ hadmits
  rw [Bool.and_eq_true, decide_eq_true_iff] at hadmits
  obtain ⟨hadmits, hle, hlt⟩ := hadmits
  rw [hadmits, Bool.true_and, Bool.true_and, beq_iff_eq, beq_iff_eq]
  exact Rule.bucketAt_of_mem_interval (hs.window_pos _ hr) hle hlt

end Service

/-! ## The bound -/

/-- **Fixed windows admit no more than their limit.** A limiter with rules that could
be made serves any commands but reloads, over a clock that never goes backward,
while outages begin and end before any call. Take a fixed-window rule and a value.

In a bucket whose counter is not reset the answers count 1, 2, 3 and so on, each of
them to a check in that bucket which the rule governs with the value and denies if
and only if the count is above the limit. So the rules let no more than `limit`
checks past in the bucket and no more than twice as many in an interval as long as
the window, and if failures are errors nothing else is let past but what is not
limited at all. -/
theorem fixed_window_admission {rules : List Rule} {defaults : DefaultLimits} {set : RuleSet}
    (hbuild : RuleSet.build rules defaults = .ok set) (settings : LimiterSettings)
    (whitelist : Whitelist) {start : Nat} {d : Disturbance} (hd : d.OnlyOutages)
    {commands : List Command} (hreload : ∀ command ∈ commands, command.isReload = false)
    (hclock : (Clock.mk start).Steady commands) {rule : Rule} (hr : rule ∈ set.rules)
    (ha : rule.algorithm = .fixedWindow) (value : String) :
    let history := (Service.start ⟨settings, set, whitelist⟩ start).chronicle d commands
    let key := rule.bucketKey settings.keySpace value
    let admitted (excused : List String) (when : Nat → Bool) :=
      history.countP fun h => h.admits rule value excused && when h.before.now
    (∀ bucket, Happening.Unreset (key bucket) history →
      (∃ m, Store.counts (key bucket) (Happening.journal history) = List.range' 1 m) ∧
      (∀ h ∈ history, ∀ x ∈ h.exchanges, ∀ c, x.fixedCount? (key bucket) = some c →
        h.concerns rule value = true ∧ rule.bucketAt h.before.now = bucket ∧
          (h.report.deniesBy rule.id = true ↔ rule.limit < c.count)) ∧
      admitted Report.notByRules (rule.bucketAt · == bucket) ≤ rule.limit ∧
      (settings.failOpen = false →
        admitted Report.notAsked (rule.bucketAt · == bucket) ≤ rule.limit)) ∧
    ∀ t, (∀ bucket, bucket = rule.bucketAt t ∨ bucket = rule.bucketAt t + 1 →
        Happening.Unreset (key bucket) history) →
      admitted Report.notByRules (fun now => decide (t ≤ now ∧ now < t + rule.window)) ≤
        2 * rule.limit ∧
      (settings.failOpen = false →
        admitted Report.notAsked (fun now => decide (t ≤ now ∧ now < t + rule.window)) ≤
          2 * rule.limit) := by
  have hs : set.Sound := RuleSet.sound_of_build hbuild
  have hbyRules : "disabled" ∈ Report.notByRules ∧ "whitelisted" ∈ Report.notByRules ∧
      "store_failure" ∈ Report.notByRules := by decide
  have hasked : "disabled" ∈ Report.notAsked ∧ "whitelisted" ∈ Report.notAsked := by decide
  intro history key admitted
  refine ⟨?_, ?_⟩
  · intro bucket hunreset
    obtain ⟨m, hcounts, -⟩ := Service.counts_of_bucket
      (s := .start ⟨settings, set, whitelist⟩ start) hd hreload hclock hs Store.distinct_empty
      hr ha (Tallied.none _ _) hunreset
    refine ⟨⟨m, hcounts⟩, ?_, ?_, ?_⟩
    · exact fun h hh x hx c hc => Service.verdict_of_fixedCount hreload hs hr ha hh hx hc
    · exact Service.countP_admits_le hd hreload hclock hs rfl hr ha ⟨hbyRules.1, hbyRules.2.1⟩
        (.inr hbyRules.2.2) hunreset
    · exact fun hclosed =>
        Service.countP_admits_le hd hreload hclock hs rfl hr ha hasked (.inl hclosed) hunreset
  · intro t hunreset
    refine ⟨?_, ?_⟩
    · exact Service.countP_admits_interval_le hd hreload hclock hs rfl hr ha
        ⟨hbyRules.1, hbyRules.2.1⟩ (.inr hbyRules.2.2) t hunreset
    · exact fun hclosed => Service.countP_admits_interval_le hd hreload hclock hs rfl hr ha hasked
        (.inl hclosed) t hunreset

/-! ## A history -/

namespace FixedWindowSample

/-- One request a minute from each address. -/
def rule : Rule := Rule.basic "login" .address 1 60

/-- A limiter that turns requests away when the store fails. -/
def settings : LimiterSettings := ⟨true, false, 50, "turnstile"⟩

def request : Request := .describe "POST" "/login" "10.0.0.1"

/-- The second call fails and all others are answered. -/
def secondFails : Disturbance := fun i b =>
  { b with outage := if i = 1 then some ⟨some (.storeUnavailable "down"), [], 0⟩ else none }

/-- Three requests in one minute and two in the next. -/
def commands : List Command :=
  [.check request, .check request, .check request, .advance 40000, .check request, .purge,
    .check request]

theorem onlyOutages_secondFails : secondFails.OnlyOutages := fun _ _ => ⟨_, rfl⟩

end FixedWindowSample

open FixedWindowSample in
/-- In the first minute one request is let past, one meets a failing store and one is
denied; at most two are let past in the minute that begins twenty seconds later. -/
theorem fixed_window_admission_of_login :
    let history := (Service.start ⟨settings, ⟨[rule]⟩, .ofConfig .empty⟩ 30000).chronicle
      secondFails commands
    history.map (·.admits rule "10.0.0.1" Report.notAsked) =
        [true, false, false, false, true, false, false] ∧
      history.countP (fun h => h.admits rule "10.0.0.1" Report.notAsked &&
        rule.bucketAt h.before.now == 0) ≤ 1 ∧
      history.countP (fun h => h.admits rule "10.0.0.1" Report.notAsked &&
        decide (20000 ≤ h.before.now ∧ h.before.now < 20000 + rule.window)) ≤ 2 := by
  have hbuild : RuleSet.build [rule] .empty = .ok ⟨[rule]⟩ := rfl
  have hreload : ∀ command ∈ commands, command.isReload = false := by decide
  have hclock : (Clock.mk 30000).Steady commands := by decide
  have h := fixed_window_admission hbuild settings (.ofConfig .empty) onlyOutages_secondFails
    hreload hclock List.mem_cons_self rfl "10.0.0.1"
  refine ⟨by decide +kernel, (h.1 0 ?_).2.2.2 rfl, (h.2 20000 ?_).2 rfl⟩
  · decide +kernel
  · rintro _ (rfl | rfl)
    · decide +kernel
    · decide +kernel

end Admission
