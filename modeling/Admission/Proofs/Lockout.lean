/-
How long a refusal lasts.

What a rule that refuses says of its counter is how long it stays full. For a fixed window
that is the rest of its bucket (`Observation.bucketEnd_eq`): the next bucket begins with a
fresh counter, since nobody can have counted in it before (`Limiter.Reaches.find?_eq_none`).
For a sliding window it is the time until the oldest instant of the log leaves
(`SlidingCount.Describes`). Either way the counter shows the limit up to that time, whoever
asks meanwhile, and has room from then on if nobody did (`Service.shuts_of_hears`).
-/
import Admission.Proofs.Refusal

set_option autoImplicit false

namespace Admission

/-! ## Buckets and their ends -/

/-- A product may be cut down to a word in its factors as well. -/
theorem Word.clamp_mul_clamp {a b : Nat} (ha : 0 < a) (hb : 0 < b) :
    Word.clamp (Word.clamp a * Word.clamp b) = Word.clamp (a * b) := by
  have hpos : 0 < Word.clamp a ∧ 0 < Word.clamp b := by
    rw [Word.clamp, Word.clamp, Word.max]
    omega
  by_cases hlarge : Word.max < a ∨ Word.max < b
  · -- both products reach the largest word
    have hcut : Word.max ≤ Word.clamp a * Word.clamp b := by
      rcases hlarge with hlarge | hlarge
      · have hclamp : Word.clamp a = Word.max := Nat.min_eq_right hlarge.le
        rw [hclamp]
        exact Nat.le_mul_of_pos_right _ hpos.2
      · have hclamp : Word.clamp b = Word.max := Nat.min_eq_right hlarge.le
        rw [hclamp]
        exact Nat.le_mul_of_pos_left _ hpos.1
    have hwhole : Word.max ≤ a * b := by
      rcases hlarge with hlarge | hlarge
      · exact hlarge.le.trans (Nat.le_mul_of_pos_right _ hb)
      · exact hlarge.le.trans (Nat.le_mul_of_pos_left _ ha)
    rw [Word.clamp, Nat.min_eq_right hcut, Word.clamp, Nat.min_eq_right hwhole]
  · rw [not_or, not_lt, not_lt] at hlarge
    rw [Word.clamp_of_le hlarge.1, Word.clamp_of_le hlarge.2]

/-- **What a fixed window says of its end** is the deadline of the bucket. -/
theorem Observation.bucketEnd_eq {r : Rule} (hw : 0 < r.windowSeconds) (bucket : Nat) :
    bucketEnd r (some bucket) = r.bucketDeadline bucket :=
  Word.clamp_mul_clamp (Nat.succ_pos bucket) (Rule.window_pos hw)

/-- **What an increment in a fixed window says of the reset:** it comes at the deadline. -/
theorem Observation.resetAfter_ofFixed {r : Rule} (ha : r.algorithm = .fixedWindow)
    (hw : 0 < r.windowSeconds) (value : String) (now : Nat) (c : FixedCount) :
    (ofFixed r (CounterKey.forValue r value (now / 1000)) now c).resetAfter =
      r.bucketDeadline (r.bucketAt now) - now := by
  rw [ofFixed, Rule.forValue_fixed ha hw]
  exact congrArg (· - now) (bucketEnd_eq hw _)

namespace Rule

variable {r : Rule} {now later : Nat}

theorem bucketAt_le (r : Rule) (hle : now ≤ later) : r.bucketAt now ≤ r.bucketAt later := by
  rw [bucketAt_eq, bucketAt_eq]
  exact Nat.div_le_div_right hle

/-- Up to its deadline it is the same bucket. -/
theorem bucketAt_of_lt_bucketDeadline (hw : 0 < r.windowSeconds) (hle : now ≤ later)
    (hlt : later < r.bucketDeadline (r.bucketAt now)) : r.bucketAt later = r.bucketAt now := by
  have hbelow : later < (r.bucketAt now + 1) * r.window := hlt.trans_le (Nat.min_le_left _ _)
  have hbucket : r.bucketAt later < r.bucketAt now + 1 := by
    rw [bucketAt_eq r later]
    exact (Nat.div_lt_iff_lt_mul (window_pos hw)).2 hbelow
  have hmono := r.bucketAt_le hle
  omega

/-- From its deadline on it is another one. -/
theorem lt_bucketAt_of_bucketDeadline_le (hw : 0 < r.windowSeconds) (hlater : later < Word.max)
    {bucket : Nat} (hle : r.bucketDeadline bucket ≤ later) : bucket < r.bucketAt later := by
  -- a deadline that was cut down to a word is never reached
  have hwhole : (bucket + 1) * r.window ≤ later := by
    rw [bucketDeadline, Word.clamp] at hle
    omega
  rw [bucketAt_eq]
  exact (Nat.le_div_iff_mul_le (window_pos hw)).2 hwhole

end Rule

/-- The key of a fixed-window rule is that of the bucket. -/
theorem Limiter.keyOf_fixed (l : Limiter) {r : Rule} (ha : r.algorithm = .fixedWindow)
    (hw : 0 < r.windowSeconds) (value : String) (now : Nat) :
    l.keyOf r value (now / 1000) = r.bucketKey l.settings.keySpace value (r.bucketAt now) := by
  rw [keyOf, Rule.forValue_fixed ha hw, Rule.bucketKey]

/-- A sliding-window rule has the same key at all times. -/
theorem Limiter.keyOf_sliding (l : Limiter) {r : Rule} (ha : r.algorithm = .slidingWindow)
    (value : String) (seconds : Nat) :
    l.keyOf r value seconds = r.logKey l.settings.keySpace value := by
  rw [keyOf, Rule.forValue_sliding ha, Rule.logKey]

/-! ## Laws of a bucket -/

/-- A tally of no less than some number lasts. -/
theorem lasting_tallied (floor deadline : Nat) :
    Lasting fun now cell => ∃ n, floor ≤ n ∧ Tallied deadline n now cell where
  fades := by
    rintro now cell after - ⟨n, hn, htally⟩ hf
    exact ⟨n, hn, htally.fades hf⟩
  later := by
    rintro now later cell hle ⟨n, hn, htally⟩
    exact ⟨n, hn, htally.later hle⟩

/-- A bucket that is still to come lasts in being empty. -/
theorem lasting_future (r : Rule) (bucket : Nat) :
    Lasting fun now cell => r.bucketAt now < bucket → cell = none where
  fades := by
    intro now cell after _ h hf hfuture
    rw [h hfuture] at hf
    rcases hf with rfl | ⟨rfl, -⟩
    · rfl
    · rfl
  later := fun hle h hfuture => h ((Rule.bucketAt_le r hle).trans_lt hfuture)

/-- Reading a counter before the deadline of its bucket shows the tally. -/
theorem Tallied.count_read {deadline n now : Nat} {s : Store} {key : String}
    (h : Tallied deadline n now (s.find? key)) (hnow : now < deadline) :
    (s.read now key).count = n := by
  rcases h hnow with ⟨rfl, hfaded⟩ | ⟨c, hcell, hcount, hexpires⟩
  · rw [Store.read, Store.live?_of_faded hfaded]
    rfl
  · have halive : (Entry.fixed c).isExpired now = false :=
      FixedCounter.isExpired_eq_false (hnow.trans_le hexpires)
    rw [Store.read, Store.live?_of_alive hcell halive]
    exact hcount

namespace Limiter

variable {l : Limiter} {rule : Rule} {value : String} {bucket now : Nat} {s : Store}

/-- **A call about a bucket keeps the tally:** it goes up or stays, unless it is reset. -/
theorem tallied_answer (hs : l.rules.Sound) (hr : rule ∈ l.rules.rules)
    (ha : rule.algorithm = .fixedWindow) {call : Call} (hasks : l.Asks now call)
    (hkey : call.key = rule.bucketKey l.settings.keySpace value bucket) {floor : Nat}
    (hreset : call = .reset call.key → floor = 0) (hd : s.Distinct) (hnow : now < Word.max)
    (h : ∃ n, floor ≤ n ∧ Tallied (rule.bucketDeadline bucket) n now
      (s.find? (rule.bucketKey l.settings.keySpace value bucket))) :
    ∃ n, floor ≤ n ∧ Tallied (rule.bucketDeadline bucket) n now
      ((s.answer now call).2.find? (rule.bucketKey l.settings.keySpace value bucket)) := by
  obtain ⟨n, hn, htally⟩ := h
  rcases hasks.of_bucketKey hs hr ha hkey with ⟨hcall, rfl⟩ | hcall | hcall
  · rw [hcall, hkey]
    exact ⟨n + 1, Nat.le_succ_of_le hn, (Store.tallied_incrementFixed hd
      (rule.lt_bucketDeadline (hs.window_pos _ hr) hnow) (rule.bucketDeadline_le now) htally).2⟩
  · rw [hcall]
    exact ⟨n, hn, htally⟩
  · rw [hreset hcall, hcall, hkey, Store.answer, Store.reset, Store.find?_erase, if_pos rfl]
    exact ⟨0, Nat.le_refl 0, Tallied.none _ _⟩

/-- Every counter of a fixed window tallies its bucket. -/
theorem Reaches.tallied (hs : l.rules.Sound) (hr : rule ∈ l.rules.rules)
    (ha : rule.algorithm = .fixedWindow) (h : l.Reaches now s) (hnow : now < Word.max)
    (value : String) (bucket : Nat) :
    ∃ n, Tallied (rule.bucketDeadline bucket) n now
      (s.find? (rule.bucketKey l.settings.keySpace value bucket)) := by
  obtain ⟨n, -, htally⟩ := h.keeps (lasting_tallied 0 (rule.bucketDeadline bucket)) hnow
    (fun start => ⟨0, Nat.le_refl 0, Tallied.none _ start⟩)
    fun n call hasks hkey u hd hn hcell =>
      tallied_answer hs hr ha hasks hkey (fun _ => rfl) hd hn hcell
  exact ⟨n, htally⟩

/-- **Nothing is under the key of a bucket that is still to come.** -/
theorem Reaches.find?_eq_none (hs : l.rules.Sound) (hr : rule ∈ l.rules.rules)
    (ha : rule.algorithm = .fixedWindow) (h : l.Reaches now s) (hnow : now < Word.max)
    (value : String) (hfuture : rule.bucketAt now < bucket) :
    s.find? (rule.bucketKey l.settings.keySpace value bucket) = none := by
  refine h.keeps (lasting_future rule bucket) hnow (fun _ _ => rfl) ?_ hfuture
  intro n call hasks hkey u hd hn hcell hfuture
  rcases hasks.of_bucketKey hs hr ha hkey with ⟨-, rfl⟩ | hcall | hcall
  · -- requests are counted in the bucket of the present alone
    exact absurd hfuture (lt_irrefl _)
  · rw [hcall]
    exact hcell hfuture
  · rw [hcall, hkey, Store.answer, Store.reset, Store.find?_erase, if_pos rfl]

end Limiter

/-! ## Laws of a log -/

/-- A law of the past that stays true as time passes makes a lasting law of the log. -/
theorem lasting_logged (window : Nat) {P : Nat → List Nat → Prop}
    (hP : ∀ {now later past}, now ≤ later → P now past → P later past) :
    Lasting fun now cell => ∃ past, P now past ∧ Logged window now past cell where
  fades := by
    rintro now cell after hnow ⟨past, hpast, hlogged⟩ hf
    exact ⟨past, hpast, hlogged.fades hnow hf⟩
  later := by
    rintro now later cell hle ⟨past, hpast, hlogged⟩
    exact ⟨past, hP hle hpast, hlogged.later hle⟩

theorem trailing_le_of_le {window now later : Nat} (past : List Nat) (hle : now ≤ later) :
    trailing window later past ≤ trailing window now past := by
  refine List.countP_mono_left ?_
  intro instant _ hinside
  rw [decide_eq_true_iff] at hinside ⊢
  exact hle.trans_lt hinside

theorem trailing_le_append (window now : Nat) (past more : List Nat) :
    trailing window now past ≤ trailing window now (past ++ more) := by
  rw [trailing_append]
  exact Nat.le_add_right _ _

theorem trailing_singleton_le (window now instant : Nat) :
    trailing window now [instant] ≤ 1 :=
  List.countP_le_length

/-- **What an answer tells of a log,** as an attempt has left it: how many instants there
are, all inside the window, and when the oldest of them leaves. -/
structure SlidingCount.Describes (c : SlidingCount) (now : Nat) (l : SlidingLog)
    (oldest : Nat) : Prop where
  head : l.instants.head? = some oldest
  inside : now < Word.add oldest l.window
  count : c.count = l.instants.length
  resetAfter : c.resetAfter = Word.add oldest l.window - now

namespace SlidingLog

variable {l : SlidingLog} {window now : Nat} {past : List Nat}

/-- The first instant of a trimmed log is inside the window. -/
theorem lt_of_head?_trim (hwindow : l.window = Word.clamp window) (hnow : now < Word.max)
    {oldest : Nat} (h : (l.trim now).instants.head? = some oldest) :
    now < Word.add oldest (Word.clamp window) := by
  have hinside := List.head?_dropWhile_not (hasLeft l.window now) l.instants
  rw [trim] at h
  dsimp only at h
  rw [h] at hinside
  change hasLeft l.window now oldest = false at hinside
  by_contra hle
  rw [hwindow, (hasLeft_iff hnow).2 (left_of_add_le hnow (not_lt.1 hle))] at hinside
  cases hinside

/-- **The answer to an attempt describes the log** that is left, whatever its window was before. -/
theorem describes_attempt (l : SlidingLog) (hnow : now < Word.max) (hwindow : 0 < window)
    {limit : Nat} (hlimit : 0 < limit) :
    ∃ oldest, (l.attempt now window limit).1.Describes now (l.attempt now window limit).2
      oldest := by
  rw [SlidingLog.attempt]
  dsimp only
  have hwide : ({ l with window := Word.clamp window } : SlidingLog).window = Word.clamp window :=
    rfl
  have htrimmed : ({ l with window := Word.clamp window }.trim now).window = Word.clamp window :=
    rfl
  cases hinstants : ({ l with window := Word.clamp window }.trim now).instants with
  | nil =>
    -- there is room, and the attempt itself becomes the oldest
    have hinside : now < Word.add now (Word.clamp window) := by
      rw [Word.add, Word.clamp, Word.clamp]
      omega
    rw [List.length_nil, if_neg (Nat.not_le.2 hlimit)]
    exact ⟨now, rfl, hinside, rfl, rfl⟩
  | cons oldest rest =>
    have hinside := lt_of_head?_trim hwide hnow (by rw [hinstants]; rfl)
    rw [← htrimmed] at hinside
    split
    · refine ⟨oldest, by rw [hinstants]; rfl, hinside, by rw [hinstants], ?_⟩
      rw [resetAfter, hinstants]
    · exact ⟨oldest, rfl, hinside, by simp, rfl⟩

namespace Keeps

variable {oldest t : Nat}

/-- The first instant of a log is the oldest. -/
theorem head_le (h : l.Keeps window now past) (hhead : l.instants.head? = some oldest) :
    ∀ instant ∈ l.instants, oldest ≤ instant := by
  obtain ⟨rest, hrest⟩ := List.head?_eq_some_iff.1 hhead
  have hsorted := h.sorted_instants
  rw [hrest, List.pairwise_cons] at hsorted
  rw [hrest]
  exact List.forall_mem_cons.2 ⟨le_rfl, hsorted.1⟩

/-- Up to the time when the oldest instant leaves, all of the log is inside the window. -/
theorem length_le_trailing (h : l.Keeps window now past) (hhead : l.instants.head? = some oldest)
    (ht : t < Word.add oldest l.window) : l.instants.length ≤ trailing window t past := by
  obtain ⟨gone, hpast, -⟩ := h.lost
  have hall : trailing window t l.instants = l.instants.length := by
    rw [trailing, List.countP_eq_length]
    intro instant hinstant
    have hle := h.head_le hhead instant hinstant
    rw [h.window_eq, Word.add, Word.clamp, Word.clamp] at ht
    rw [decide_eq_true_iff]
    omega
  rw [hpast, trailing_append, hall]
  exact Nat.le_add_left _ _

/-- From then on the window holds less than the log. -/
theorem trailing_lt_length (h : l.Keeps window now past) (hhead : l.instants.head? = some oldest)
    (hle : now ≤ t) (ht : t < Word.max) (hleft : Word.add oldest l.window ≤ t) :
    trailing window t past < l.instants.length := by
  obtain ⟨gone, hpast, hgone⟩ := h.lost
  obtain ⟨rest, hrest⟩ := List.head?_eq_some_iff.1 hhead
  rw [h.window_eq] at hleft
  have hfirst : trailing window t (gone ++ [oldest]) = 0 := by
    refine trailing_eq_zero ?_
    intro instant hinstant
    rcases List.mem_append.1 hinstant with hinstant | hinstant
    · exact (hgone instant hinstant).trans hle
    · rw [List.mem_singleton.1 hinstant]
      exact left_of_add_le ht hleft
  have hbehind : trailing window t rest ≤ rest.length := List.countP_le_length
  rw [hpast, hrest, ← List.singleton_append, ← List.append_assoc, trailing_append, hfirst,
    List.singleton_append, List.length_cons]
  omega

end Keeps

end SlidingLog

/-- A log with an instant inside the window is alive. -/
theorem SlidingCount.Describes.isExpired_eq_false {c : SlidingCount} {now oldest window : Nat}
    {l : SlidingLog} {past : List Nat} (h : c.Describes now l oldest)
    (hkeeps : l.Keeps window now past) : (Entry.sliding l).isExpired now = false := by
  have hexpires := hkeeps.expires oldest (List.mem_of_mem_head? h.head)
  exact decide_eq_false (not_le_of_gt (h.inside.trans_le hexpires))

/-- **An attempt leaves a log** that its answer describes; the log holds no more than the
limit, and just the limit if the attempt was not let through. -/
theorem Store.exists_log_incrementSliding {now window limit : Nat} {s : Store} {key : String}
    {past : List Nat} (hd : s.Distinct) (hnow : now < Word.max) (hwindow : 0 < window)
    (hlimit : 0 < limit) (hle : trailing window now past ≤ limit)
    (h : Logged window now past (s.find? key)) :
    ∃ log later oldest,
      (s.incrementSliding now key window limit now).2.find? key = some (.sliding log) ∧
        log.Keeps window now later ∧
        (s.incrementSliding now key window limit now).1.Describes now log oldest ∧
        log.instants.length ≤ limit ∧
        ((s.incrementSliding now key window limit now).1.exceeded = true →
          log.instants.length = limit) := by
  obtain ⟨l, hcell, hkeeps⟩ := h
  have hlog : s.slidingLog key window = l := by
    rcases hcell with ⟨hcell, rfl⟩ | hcell
    · exact slidingLog_of_none hcell window
    · exact slidingLog_of_sliding hcell window
  have hfades := fades_countWrite_put hd now key (.sliding (l.attempt now window limit).2)
  obtain ⟨oldest, hdescribes⟩ := l.describes_attempt hnow hwindow hlimit
  have hattempt := hkeeps.attempt hnow limit
  rw [incrementSliding, hlog]
  generalize l.attempt now window limit = outcome at hfades hdescribes hattempt ⊢
  dsimp only at hattempt ⊢
  -- the write that leaves the log does not sweep it away
  have hcell : ∀ {later}, outcome.2.Keeps window now later →
      ((s.put key (.sliding outcome.2)).countWrite now).find? key = some (.sliding outcome.2) := by
    exact fun hkept => hfades.eq_of_alive (hdescribes.isExpired_eq_false hkept)
  have hlength := hdescribes.count
  split at hattempt
  · rename_i hfull
    obtain ⟨-, hcount, hkept⟩ := hattempt
    exact ⟨_, _, oldest, hcell hkept, hkept, hdescribes, by omega, fun _ => by omega⟩
  · rename_i hroom
    obtain ⟨hexceeded, hcount, hkept⟩ := hattempt
    refine ⟨_, _, oldest, hcell hkept, hkept, hdescribes, by omega, ?_⟩
    rw [hexceeded]
    exact fun h => absurd h Bool.false_ne_true

namespace Limiter

variable {l : Limiter} {rule : Rule} {value : String} {now : Nat} {s : Store}

/-- **A call about a log keeps a law of its past** if it holds up when an attempt is let
through for which there is room, and for no past if the log is reset. -/
theorem logged_answer {P : List Nat → Prop} (hs : l.rules.Sound) (hr : rule ∈ l.rules.rules)
    (ha : rule.algorithm = .slidingWindow) {call : Call} (hasks : l.Asks now call)
    (hkey : call.key = rule.logKey l.settings.keySpace value) (hd : s.Distinct)
    (hnow : now < Word.max)
    (hpassed : ∀ past, P past → trailing rule.window now past < rule.limit → P (past ++ [now]))
    (hreset : call = .reset call.key → P [])
    (h : ∃ past, P past ∧ Logged rule.window now past
      (s.find? (rule.logKey l.settings.keySpace value))) :
    ∃ past, P past ∧ Logged rule.window now past
      ((s.answer now call).2.find? (rule.logKey l.settings.keySpace value)) := by
  obtain ⟨past, hpast, hlogged⟩ := h
  rcases hasks.of_logKey hs hr ha hkey with hcall | hcall | hcall
  · rw [hcall, hkey]
    obtain ⟨⟨hroom, -⟩, hlater⟩ := Store.logged_incrementSliding hd hnow hlogged rule.limit
    refine ⟨_, ?_, hlater⟩
    split
    · rwa [List.append_nil]
    · rename_i hexceeded
      exact hpassed past hpast (hroom.1 (by simpa using hexceeded))
  · rw [hcall]
    exact ⟨past, hpast, hlogged⟩
  · rw [hcall, hkey, Store.answer, Store.reset, Store.find?_erase, if_pos rfl]
    exact ⟨[], hreset hcall, Logged.none _ _⟩

/-- **A log holds no more than the limit** of what is inside the window. -/
theorem Reaches.logged (hs : l.rules.Sound) (hr : rule ∈ l.rules.rules)
    (ha : rule.algorithm = .slidingWindow) (h : l.Reaches now s) (hnow : now < Word.max)
    (value : String) :
    ∃ past, trailing rule.window now past ≤ rule.limit ∧ Logged rule.window now past
      (s.find? (rule.logKey l.settings.keySpace value)) := by
  refine h.keeps (lasting_logged rule.window
    (P := fun now past => trailing rule.window now past ≤ rule.limit) ?_) hnow ?_ ?_
  · exact fun hle hpast => (trailing_le_of_le _ hle).trans hpast
  · exact fun start => ⟨[], Nat.zero_le _, Logged.none _ _⟩
  · intro n call hasks hkey u hd hn hcell
    refine logged_answer (P := fun past => trailing rule.window n past ≤ rule.limit) hs hr ha
      hasks hkey hd hn ?_ (fun _ => Nat.zero_le _) hcell
    intro past _ hroom
    have hone := trailing_singleton_le rule.window n n
    rw [trailing_append]
    omega

end Limiter

/-! ## After a refusal -/

namespace Service

variable {d : Disturbance} {s : Service} {command : Command} {commands : List Command}
variable {rule : Rule} {value : String} {x : Exchange} {o : Observation}

namespace Reachable

variable {C : Nat → Option Entry → Prop} {key : String}

/-- **A lasting law holds over a history** if every answered call under the key keeps it. -/
theorem keeps (h : s.Reachable) (hlasting : Lasting C) (hd : d.OnlyOutages)
    (hclock : s.backend.clock.Steady commands)
    (hcalls : ∀ h ∈ s.chronicle d commands, ∀ x ∈ h.exchanges, x.IsAnswered →
      x.call.key = key → ∀ u : Store, u.Distinct → h.before.now < Word.max →
        C h.before.now (u.find? key) → C h.before.now ((u.answer h.before.now x.call).2.find? key))
    (hcell : C s.now (s.backend.store.find? key)) :
    C (s.after d commands).now ((s.after d commands).backend.store.find? key) := by
  refine (chronicle_serves hd hclock).keeps hlasting h.orderly.distinct (now_after_lt hd hclock) ?_
    hcell
  intro j hj
  obtain ⟨happening, hh, x, hx, rfl⟩ := Happening.mem_journal.1 hj
  exact hcalls happening hh x hx

/-- Whatever law lasts, it holds as long as nothing is written. -/
theorem keeps_of_unwritten (h : s.Reachable) (hlasting : Lasting C) (hd : d.OnlyOutages)
    (hclock : s.backend.clock.Steady commands)
    (hunwritten : Happening.Unwritten key (s.chronicle d commands))
    (hcell : C s.now (s.backend.store.find? key)) :
    C (s.after d commands).now ((s.after d commands).backend.store.find? key) := by
  refine h.keeps hlasting hd hclock ?_ hcell
  intro happening hh x hx hanswered hkey u _ _ hu
  rw [hunwritten happening hh x hx hanswered hkey]
  exact hu

/-- And as long as nothing is reset, if the other calls of the limiter keep it. -/
theorem keeps_of_unreset (h : s.Reachable) (hlasting : Lasting C) (hd : d.OnlyOutages)
    (hreload : ∀ command ∈ commands, command.isReload = false)
    (hclock : s.backend.clock.Steady commands)
    (hunreset : Happening.Unreset key (s.chronicle d commands))
    (hcalls : ∀ now call, s.limiter.Asks now call → call.key = key → call ≠ .reset call.key →
      ∀ u : Store, u.Distinct → now < Word.max → C now (u.find? key) →
        C now ((u.answer now call).2.find? key))
    (hcell : C s.now (s.backend.store.find? key)) :
    C (s.after d commands).now ((s.after d commands).backend.store.find? key) := by
  refine h.keeps hlasting hd hclock ?_ hcell
  intro happening hh x hx hanswered hkey
  refine hcalls _ _ (asks_of_mem_chronicle hreload h.sound hh x hx) hkey ?_
  intro hreset
  rw [hkey] at hreset
  exact hunreset happening hh x hx ⟨hreset, hanswered⟩

end Reachable

/-- **How a rule stands for a value from now on:** its counter shows the limit until some
time, as long as it is not reset, and has room from then on if nothing is written under
the key that the rule uses then. -/
structure Shuts (d : Disturbance) (s : Service) (rule : Rule) (value : String) (until_ : Nat) :
    Prop where
  closed : ∀ commands, (∀ command ∈ commands, command.isReload = false) →
    s.backend.clock.Steady commands →
    Happening.Unreset (s.limiter.keyOf rule value (s.now / 1000)) (s.chronicle d commands) →
    (s.after d commands).now < until_ →
    rule.limit ≤ ((s.after d commands).backend.store.read (s.after d commands).now
      (s.limiter.keyOf rule value ((s.after d commands).now / 1000))).count
  opens : ∀ commands, s.backend.clock.Steady commands →
    Happening.Unwritten (s.limiter.keyOf rule value ((s.after d commands).now / 1000))
      (s.chronicle d commands) →
    until_ ≤ (s.after d commands).now →
    ((s.after d commands).backend.store.read (s.after d commands).now
      (s.limiter.keyOf rule value ((s.after d commands).now / 1000))).count < rule.limit

/-- **A full bucket shuts its rule until the deadline.** -/
theorem shuts_of_fixed (h : s.Reachable) (hd : d.OnlyOutages)
    (hr : rule ∈ s.limiter.rules.rules) (ha : rule.algorithm = .fixedWindow)
    (hfull : rule.limit ≤
      (s.backend.store.read s.now (s.limiter.keyOf rule value (s.now / 1000))).count) :
    s.Shuts d rule value (rule.bucketDeadline (rule.bucketAt s.now)) where
  closed := by
    intro commands hreload hclock hunreset huntil
    have hw := h.sound.window_pos _ hr
    have hforward : s.now ≤ (s.after d commands).now := (chronicle_serves hd hclock).le
    rw [s.limiter.keyOf_fixed ha hw] at hfull hunreset ⊢
    rw [Rule.bucketAt_of_lt_bucketDeadline hw hforward huntil]
    -- the tally is what is read, now and then
    obtain ⟨n, htally⟩ := h.reaches.tallied h.sound hr ha h.now_lt value (rule.bucketAt s.now)
    rw [htally.count_read (rule.lt_bucketDeadline hw h.now_lt)] at hfull
    obtain ⟨m, hm, hlater⟩ := h.keeps_of_unreset (lasting_tallied rule.limit _) hd hreload hclock
      hunreset
      (fun _ _ hasks hkey hne _ =>
        Limiter.tallied_answer h.sound hr ha hasks hkey fun hreset => absurd hreset hne)
      ⟨n, hfull, htally⟩
    rwa [hlater.count_read huntil]
  opens := by
    intro commands hclock hunwritten huntil
    have hw := h.sound.window_pos _ hr
    have hlater : (s.after d commands).now < Word.max := now_after_lt hd hclock
    have hnext := Rule.lt_bucketAt_of_bucketDeadline_le hw hlater huntil
    rw [s.limiter.keyOf_fixed ha hw] at hunwritten ⊢
    have hnone := h.reaches.find?_eq_none h.sound hr ha h.now_lt value hnext
    have hfaded := h.keeps_of_unwritten lasting_faded hd hclock hunwritten
      (hnone ▸ Faded.none s.now)
    rw [Store.read, Store.live?_of_faded hfaded]
    exact h.sound.limit_pos _ hr

/-- **A full log shuts its rule until its oldest instant leaves.** -/
theorem shuts_of_sliding (h : s.Reachable) (hd : d.OnlyOutages)
    (hr : rule ∈ s.limiter.rules.rules) (ha : rule.algorithm = .slidingWindow)
    {log : SlidingLog} {past : List Nat}
    (hcell : s.backend.store.find? (rule.logKey s.limiter.settings.keySpace value) =
      some (.sliding log))
    (hkeeps : log.Keeps rule.window s.now past) {oldest : Nat}
    (hhead : log.instants.head? = some oldest) (hfull : log.instants.length = rule.limit) :
    s.Shuts d rule value (Word.add oldest log.window) where
  closed := by
    intro commands hreload hclock hunreset huntil
    rw [s.limiter.keyOf_sliding ha] at hunreset ⊢
    -- what the window held until then stays in the past, whatever is admitted after it
    have hlaw := lasting_logged rule.window (P := fun _ past =>
      ∀ t < Word.add oldest log.window, rule.limit ≤ trailing rule.window t past) fun _ h => h
    obtain ⟨later, hcrowded, hlogged⟩ := h.keeps_of_unreset hlaw hd hreload hclock hunreset
      (fun _ _ hasks hkey hne _ hdu hn => Limiter.logged_answer h.sound hr ha hasks hkey hdu hn
        (fun before hbefore _ t ht => (hbefore t ht).trans (trailing_le_append _ _ _ _))
        fun hreset => absurd hreset hne)
      ⟨past, fun t ht => hfull ▸ hkeeps.length_le_trailing hhead ht, log, .inr hcell, hkeeps⟩
    rw [Store.count_read_sliding hlogged (now_after_lt hd hclock)]
    exact hcrowded _ huntil
  opens := by
    intro commands hclock hunwritten huntil
    rw [s.limiter.keyOf_sliding ha] at hunwritten ⊢
    have hlater : (s.after d commands).now < Word.max := now_after_lt hd hclock
    have hforward : s.now ≤ (s.after d commands).now := (chronicle_serves hd hclock).le
    -- nothing is written, so the past of the log stays the same
    have hlaw := lasting_logged rule.window (P := fun _ now => now = past) fun _ h => h
    obtain ⟨_, rfl, hlogged⟩ := h.keeps_of_unwritten hlaw hd hclock hunwritten
      ⟨past, rfl, log, .inr hcell, hkeeps⟩
    rw [Store.count_read_sliding hlogged hlater, ← hfull]
    exact hkeeps.trailing_lt_length hhead hforward hlater huntil

/-! ## What a refusal says -/

/-- **The log behind what is heard** of a sliding window: it is under the rule's key after
the check, and the answer describes it. -/
theorem exists_log_of_hears (h : s.Reachable) (hd : d.OnlyOutages)
    (hr : rule ∈ s.limiter.rules.rules) (ha : rule.algorithm = .slidingWindow)
    (hx : x ∈ (s.happening d command).exchanges)
    (hheard : s.limiter.Hears rule (CounterKey.forValue rule value (s.now / 1000)) s.now x
      (.ok o)) :
    ∃ (c : SlidingCount) (log : SlidingLog) (past : List Nat) (oldest : Nat),
      o = .ofSliding (CounterKey.forValue rule value (s.now / 1000)) c ∧
        (s.handleAmid d command).2.backend.store.find?
          (rule.logKey s.limiter.settings.keySpace value) = some (.sliding log) ∧
        log.Keeps rule.window s.now past ∧ c.Describes s.now log oldest ∧
        log.instants.length ≤ rule.limit ∧
        (o.exceeded = true → log.instants.length = rule.limit) := by
  obtain ⟨u, hreached, -, hreply, hfades⟩ := exists_meeting_of_counts h hd hx
    (Exchange.countsUnder_iff.1 hheard.countsUnder).1 hheard.isAnswered
  obtain ⟨past, hle, hlogged⟩ := hreached.logged h.sound hr ha h.now_lt value
  obtain ⟨log, later, oldest, hcell, hkeeps, hdescribes, hlength, hfull⟩ :=
    Store.exists_log_incrementSliding (hreached.orderly h.sound h.now_lt).distinct h.now_lt
      (Rule.window_pos (h.sound.window_pos _ hr)) (h.sound.limit_pos _ hr) hle hlogged
  -- what was heard is the answer to the attempt, and the log is as the attempt left it
  have hobserve := hheard.run_observe hreply
  rw [Limiter.run_observe_sliding ha, Prod.mk.injEq, Except.ok.injEq,
    s.limiter.keyOf_sliding ha] at hobserve
  obtain ⟨rfl, hafter⟩ := hobserve
  have hkey : x.call.key = rule.logKey s.limiter.settings.keySpace value :=
    hheard.call_key.trans (s.limiter.keyOf_sliding ha value _)
  rw [← hafter, hkey, hcell] at hfades
  exact ⟨_, log, later, oldest, rfl, hfades.eq_of_alive (hdescribes.isExpired_eq_false hkeeps),
    hkeeps, hdescribes, hlength, hfull⟩

/-- A fixed window that refuses is shut for the rest of its bucket. -/
theorem shuts_of_hears_fixed (h : s.Reachable) (hd : d.OnlyOutages)
    (hr : rule ∈ s.limiter.rules.rules) (ha : rule.algorithm = .fixedWindow) {request : Request}
    (hx : x ∈ (s.happening d (.check request)).exchanges)
    (hheard : s.limiter.Hears rule (CounterKey.forValue rule value (s.now / 1000)) s.now x
      (.ok o)) (ho : o.exceeded = true) :
    0 < o.resetAfter ∧
      (s.handleAmid d (.check request)).2.Shuts d rule value (s.now + o.resetAfter) := by
  obtain ⟨hlimiter, hsame⟩ := handleAmid_check hd s request
  have hw := h.sound.window_pos _ hr
  obtain ⟨u, hreached, -, hreply, hfades⟩ := exists_meeting_of_counts h hd hx
    (Exchange.countsUnder_iff.1 hheard.countsUnder).1 hheard.isAnswered
  -- the counter that refused shows the request as well
  have hcounted := hheard.counted h.sound h.now_lt (hreached.orderly h.sound h.now_lt) hr hreply
  have hfull := hcounted.exceeded_iff.1 ho
  have hcount := hcounted.count
  rw [if_neg (by simp [ha])] at hcount
  have hkey : x.call.key = s.limiter.keyOf rule value (s.now / 1000) := hheard.call_key
  rw [hkey] at hfades
  have hshown : rule.limit ≤ ((s.handleAmid d (.check request)).2.backend.store.read s.now
      (s.limiter.keyOf rule value (s.now / 1000))).count := by
    rw [Store.read, Store.live?_of_fades hfades, ← Store.read, hcount]
    exact Nat.le_succ_of_le hfull
  have hdeadline : s.now < rule.bucketDeadline (rule.bucketAt s.now) :=
    rule.lt_bucketDeadline hw h.now_lt
  obtain ⟨c, -, rfl⟩ := hheard.exists_fixedCount ha
  rw [Observation.resetAfter_ofFixed ha hw, Nat.add_sub_cancel' hdeadline.le]
  refine ⟨Nat.sub_pos_of_lt hdeadline, ?_⟩
  have hshuts : (s.handleAmid d (.check request)).2.Shuts d rule value _ :=
    shuts_of_fixed (h.check hd request) hd (by rwa [hlimiter]) ha (by rwa [hlimiter, hsame])
  rwa [hsame] at hshuts

/-- A sliding one until the oldest instant of its log leaves. -/
theorem shuts_of_hears_sliding (h : s.Reachable) (hd : d.OnlyOutages)
    (hr : rule ∈ s.limiter.rules.rules) (ha : rule.algorithm = .slidingWindow) {request : Request}
    (hx : x ∈ (s.happening d (.check request)).exchanges)
    (hheard : s.limiter.Hears rule (CounterKey.forValue rule value (s.now / 1000)) s.now x
      (.ok o)) (ho : o.exceeded = true) :
    0 < o.resetAfter ∧
      (s.handleAmid d (.check request)).2.Shuts d rule value (s.now + o.resetAfter) := by
  obtain ⟨hlimiter, hsame⟩ := handleAmid_check hd s request
  obtain ⟨c, log, past, oldest, rfl, hcell, hkeeps, hdescribes, -, hfull⟩ :=
    exists_log_of_hears h hd hr ha hx hheard
  rw [Observation.ofSliding]
  dsimp only
  rw [hdescribes.resetAfter, Nat.add_sub_cancel' hdescribes.inside.le]
  refine ⟨Nat.sub_pos_of_lt hdescribes.inside, ?_⟩
  exact shuts_of_sliding (h.check hd request) hd (by rwa [hlimiter]) ha (by rwa [hlimiter])
    (by rwa [hsame]) hdescribes.head (hfull ho)

/-- **A refusal shuts its rule** for as long as it says. -/
theorem shuts_of_hears (h : s.Reachable) (hd : d.OnlyOutages)
    (hr : rule ∈ s.limiter.rules.rules) {request : Request}
    (hx : x ∈ (s.happening d (.check request)).exchanges)
    (hheard : s.limiter.Hears rule (CounterKey.forValue rule value (s.now / 1000)) s.now x
      (.ok o)) (ho : o.exceeded = true) :
    0 < o.resetAfter ∧
      (s.handleAmid d (.check request)).2.Shuts d rule value (s.now + o.resetAfter) := by
  cases ha : rule.algorithm with
  | fixedWindow => exact shuts_of_hears_fixed h hd hr ha hx hheard ho
  | slidingWindow => exact shuts_of_hears_sliding h hd hr ha hx hheard ho

end Service

end Admission
