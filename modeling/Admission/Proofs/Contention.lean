/-
Checks in flight share every counter fairly.

A check is several calls, and which of them it makes depends on what the others in flight
have done before. For one counter this does not matter: whoever makes the next call on
it, a fixed window answers the next number (`Store.Answers.counts_fixed`) and a sliding
one passes as long as there is room (`Store.Answers.admits_sliding`). Since a check calls
a counter once at most, a rule lets exactly as many checks through as there is room for,
whatever the schedule (`no_update_lost_in_storm`).
-/
import Admission.Proofs.Interleaving
import Admission.Proofs.Orderly

set_option autoImplicit false

namespace Admission

/-! ## Stores that a limiter may have left behind -/

/-- **A store that a limiter may have left behind:** it has served calls of the limiter,
whoever made them and in whatever order, with failures, sweeps and time in between. -/
def Limiter.Reaches (l : Limiter) (now : Nat) (s : Store) : Prop :=
  ∃ start journal, Store.Serves start .empty journal now s ∧ ∀ j ∈ journal, l.Asks j.1 j.2.call

theorem Limiter.Reaches.orderly {l : Limiter} {now : Nat} {s : Store} (h : l.Reaches now s)
    (hs : l.rules.Sound) (hnow : now < Word.max) : s.Orderly l now := by
  obtain ⟨start, journal, hserves, hasks⟩ := h
  exact hserves.orderly (Store.orderly_empty l start) hs hnow hasks

/-- Every history without a reload leaves such a store behind. -/
theorem Service.reaches_after {d : Disturbance} (hd : d.OnlyOutages) {l : Limiter} {start : Nat}
    {commands : List Command} (hreload : ∀ command ∈ commands, command.isReload = false)
    (hclock : (Clock.mk start).Steady commands) (hs : l.rules.Sound) :
    l.Reaches ((Service.start l start).after d commands).now
      ((Service.start l start).after d commands).backend.store := by
  exact ⟨start, _, chronicle_serves (s := .start l start) hd hclock,
    asks_of_mem_journal (s := .start l start) hreload hs⟩

/-! ## The calls of a check -/

/-- **The calls of checks:** lookups of overrides, and calls that count. -/
def Limiter.AsksInCheck (l : Limiter) (now : Nat) (call : Call) : Prop :=
  l.Asks now call ∧ (call.isIncrement = true ∨
    ∃ dimension value, call = .hasMarker (overrideKey l.settings.keySpace dimension value))

/-- Whether a request was counted under a key. -/
def Exchange.countsUnder (key : String) (x : Exchange) : Bool :=
  x.call.isIncrement && x.call.key == key

theorem Exchange.countsUnder_iff {key : String} {x : Exchange} :
    x.countsUnder key = true ↔ x.call.isIncrement = true ∧ x.call.key = key := by
  rw [countsUnder, Bool.and_eq_true, beq_iff_eq]

theorem Exchange.countsUnder_of_ne {key : String} {x : Exchange} (h : x.call.key ≠ key) :
    x.countsUnder key = false := by
  rw [Bool.eq_false_iff, Ne, countsUnder_iff]
  exact fun hcounts => h hcounts.2

/-- **Whether a rule lets a request through** that was counted under the key. -/
def Rule.admits (r : Rule) (key : String) (x : Exchange) : Bool :=
  match r.algorithm with
  | .fixedWindow => (x.fixedCount? key).any (·.count ≤ r.limit)
  | .slidingWindow => (x.slidingCount? key).any (!·.exceeded)

namespace Rule

variable {r : Rule} {key : String} {x : Exchange}

theorem admits_fixed (ha : r.algorithm = .fixedWindow) (key : String) (x : Exchange) :
    r.admits key x = (x.fixedCount? key).any (·.count ≤ r.limit) := by
  rw [admits, ha]

theorem admits_sliding (ha : r.algorithm = .slidingWindow) (key : String) (x : Exchange) :
    r.admits key x = (x.slidingCount? key).any (!·.exceeded) := by
  rw [admits, ha]

/-- Whom a rule lets through it has counted. -/
theorem countsUnder_of_admits (h : r.admits key x = true) : x.countsUnder key = true := by
  rw [Exchange.countsUnder_iff]
  cases ha : r.algorithm with
  | fixedWindow =>
    rw [admits_fixed ha, Option.any_eq_true] at h
    obtain ⟨c, hc, -⟩ := h
    obtain ⟨window, hcall⟩ := Exchange.call_of_fixedCount? hc
    rw [hcall]
    exact ⟨rfl, rfl⟩
  | slidingWindow =>
    rw [admits_sliding ha, Option.any_eq_true] at h
    obtain ⟨c, hc, -⟩ := h
    obtain ⟨window, limit, instant, hcall⟩ := Exchange.call_of_slidingCount? hc
    rw [hcall]
    exact ⟨rfl, rfl⟩

end Rule

namespace Limiter

variable {l : Limiter} {rule : Rule} {value : String} {now : Nat} {call : Call}

/-- Under the key of a rule a check counts for that rule. -/
theorem AsksInCheck.of_key (h : l.AsksInCheck now call) (hs : l.rules.Sound)
    (hr : rule ∈ l.rules.rules) (hkey : call.key = l.keyOf rule value (now / 1000)) :
    rule.algorithm = .fixedWindow ∧
        call = .incrementFixed (l.keyOf rule value (now / 1000)) rule.window ∨
      rule.algorithm = .slidingWindow ∧
        call = .incrementSliding (l.keyOf rule value (now / 1000)) rule.window rule.limit now := by
  obtain ⟨hasks, hcounts | ⟨dimension, _, hlooks⟩⟩ := h
  · rcases hasks.of_key hkey with ⟨asked, hasked, hfor, hcall⟩ | hcall | hcall
    · have hsame : asked = rule := hs.eq_of_id hasked hr (congrArg CounterKey.ruleId hfor)
      subst hsame
      rw [hkey] at hcall
      exact hcall
    · rw [hcall] at hcounts
      cases hcounts
    · rw [hcall] at hcounts
      cases hcounts
  · rw [hlooks] at hkey
    exact absurd hkey.symm (CounterKey.render_ne_overrideKey _ _ _ _ _)

/-- Requests are counted in the counters that the rules in force have at the time. -/
theorem Asks.exists_keyOf (h : l.Asks now call) (hcounts : call.isIncrement = true) :
    ∃ rule ∈ l.rules.rules, ∃ value, call.key = l.keyOf rule value (now / 1000) := by
  cases h with
  | incrementFixed hr _ value | incrementSliding hr _ value => exact ⟨_, hr, value, rfl⟩
  | read | reset | resetOverride | setMarker | hasMarker => cases hcounts

/-- What is heard of a rule says whether it lets the request through. -/
theorem Hears.admits_eq {key : CounterKey} {x : Exchange} {o : Observation}
    (h : l.Hears rule key now x (.ok o)) :
    rule.admits (key.render l.settings.keySpace) x = !o.exceeded := by
  cases ha : rule.algorithm with
  | fixedWindow =>
    obtain ⟨c, hc, rfl⟩ := h.exists_fixedCount ha
    rw [Rule.admits_fixed ha, hc, Option.any_some, Observation.ofFixed, ← decide_not]
    exact decide_eq_decide.2 not_lt.symm
  | slidingWindow =>
    obtain ⟨c, hc, rfl⟩ := h.exists_slidingCount ha
    rw [Rule.admits_sliding ha, hc]
    rfl

theorem Hears.countsUnder {key : CounterKey} {x : Exchange} {heard : Except Error Observation}
    (h : l.Hears rule key now x heard) :
    x.countsUnder (key.render l.settings.keySpace) = true := by
  rw [Exchange.countsUnder_iff]
  exact ⟨by cases h <;> rfl, h.call_key⟩

/-- What is heard without a failure was answered. -/
theorem Hears.isAnswered {key : CounterKey} {x : Exchange} {o : Observation}
    (h : l.Hears rule key now x (.ok o)) : x.IsAnswered := by
  cases ha : rule.algorithm with
  | fixedWindow =>
    obtain ⟨c, hc, -⟩ := h.exists_fixedCount ha
    by_contra hanswered
    rw [Exchange.fixedCount?_of_not_answered hanswered] at hc
    cases hc
  | slidingWindow =>
    obtain ⟨c, hc, -⟩ := h.exists_slidingCount ha
    by_contra hanswered
    rw [Exchange.slidingCount?_of_not_answered hanswered] at hc
    cases hc

/-- What is answered is not heard as a failure. -/
theorem Hears.exists_ok {key : CounterKey} {x : Exchange} {heard : Except Error Observation}
    (h : l.Hears rule key now x heard) (hx : x.IsAnswered) : ∃ o, heard = .ok o := by
  cases h with
  | fixed _ reply | sliding _ reply =>
    obtain ⟨c, hc⟩ := Option.isSome_iff_exists.1 hx
    have hreply : reply.within l.settings.storeTimeout = .ok c := Reply.within_eq_ok_iff.2 hc
    rw [hreply]
    exact ⟨_, rfl⟩

end Limiter

/-! ## One counter -/

namespace Store

variable {l : Limiter} {rule : Rule} {value key : String} {now : Nat} {s s' : Store}
variable {xs : List Exchange}

theorem read_answer_of_ne {call : Call} (hd : s.Distinct) (hne : call.key ≠ key) :
    (s.answer now call).2.read now key = s.read now key := by
  rw [read, read, live?_answer_of_ne hd now hne]

/-- **The next number of a fixed window:** one more than reading shows. -/
theorem Orderly.count_incrementFixed (ho : s.Orderly l now) (hs : l.rules.Sound)
    (hnow : now < Word.max) (hr : rule ∈ l.rules.rules) (ha : rule.algorithm = .fixedWindow)
    (hkey : l.keyOf rule value (now / 1000) = key) :
    (s.incrementFixed now key rule.window).1.count = (s.read now key).count + 1 ∧
      ((s.incrementFixed now key rule.window).2.read now key).count =
        (s.read now key).count + 1 := by
  have hsuits := (Rule.suits_fixed_iff ha).1 (ho.suits rule hr value (now / 1000))
  rw [hkey] at hsuits
  have hcount : (s.incrementFixed now key rule.window).1.count = (s.read now key).count + 1 := by
    rw [count_read_fixed hsuits rule.window]
    rfl
  have hwindow : 0 < rule.window := Rule.window_pos (hs.window_pos rule hr)
  exact ⟨hcount, (count_read_incrementFixed ho.distinct hnow hwindow).trans hcount⟩

/-- **The next attempt on a sliding window:** it passes if reading shows room. -/
theorem Orderly.count_incrementSliding (ho : s.Orderly l now) (hs : l.rules.Sound)
    (hnow : now < Word.max) (hr : rule ∈ l.rules.rules) (ha : rule.algorithm = .slidingWindow)
    (hkey : l.keyOf rule value (now / 1000) = key) :
    (s.incrementSliding now key rule.window rule.limit now).1.exceeded =
        decide (rule.limit ≤ (s.read now key).count) ∧
      ((s.incrementSliding now key rule.window rule.limit now).2.read now key).count =
        (s.read now key).count + if rule.limit ≤ (s.read now key).count then 0 else 1 := by
  obtain ⟨o, after, hrun, hcounted⟩ := Limiter.observe_sliding_of_orderly value hs hnow ho hr ha
  have hexceeded := hcounted.exceeded_iff
  have hcount := hcounted.count
  rw [Limiter.observe, ha] at hrun
  obtain ⟨ho, hafter⟩ := Prod.mk.inj hrun
  rw [← Except.ok.inj ho] at hexceeded hcount
  rw [← hafter] at hcount
  subst hkey
  refine ⟨Bool.eq_iff_iff.2 (hexceeded.trans decide_eq_true_iff.symm), hcount.trans ?_⟩
  simp only [hexceeded, ha, and_true]

namespace Answers

/-- **A fixed window hands its numbers out in turn,** whoever asks. -/
theorem counts_fixed (h : Answers now s xs s') (ho : s.Orderly l now) (hs : l.rules.Sound)
    (hnow : now < Word.max) (hasks : ∀ x ∈ xs, l.AsksInCheck now x.call)
    (hr : rule ∈ l.rules.rules) (ha : rule.algorithm = .fixedWindow)
    (hkey : l.keyOf rule value (now / 1000) = key) :
    (xs.filterMap fun x => (x.fixedCount? key).map FixedCount.count) =
        List.range' ((s.read now key).count + 1) (xs.countP (Exchange.countsUnder key)) ∧
      (s'.read now key).count =
        (s.read now key).count + xs.countP (Exchange.countsUnder key) := by
  induction h with
  | nil => exact ⟨rfl, rfl⟩
  | @cons s s' call xs _ ih =>
    rw [List.forall_mem_cons] at hasks
    obtain ⟨hcounts, hread⟩ := ih (ho.answer hs hnow hasks.1.1) hasks.2
    by_cases hcall : call.key = key
    · -- the call takes the next number, and the rest follow on from it
      rcases hasks.1.of_key hs hr (hcall.trans hkey.symm) with ⟨-, hcall⟩ | ⟨hsliding, -⟩
      · dsimp only at hcall
        rw [hkey] at hcall
        subst hcall
        obtain ⟨hnext, hafter⟩ := ho.count_incrementFixed hs hnow hr ha hkey
        rw [Store.answer, hafter] at hcounts hread
        have hhead : Exchange.fixedCount? key ⟨.incrementFixed key rule.window,
            .answered (s.incrementFixed now key rule.window).1⟩ =
              some (s.incrementFixed now key rule.window).1 := if_pos rfl
        have hunder : Exchange.countsUnder key ⟨.incrementFixed key rule.window,
            .answered (s.incrementFixed now key rule.window).1⟩ = true :=
          Exchange.countsUnder_iff.2 ⟨rfl, rfl⟩
        rw [Store.answer, List.countP_cons_of_pos hunder, List.filterMap_cons, hhead,
          Option.map_some, hnext, hcounts, List.range'_succ]
        exact ⟨rfl, by omega⟩
      · rw [ha] at hsliding
        cases hsliding
    · have hhead : Exchange.fixedCount? key ⟨call, .answered (s.answer now call).1⟩ = none :=
        Exchange.fixedCount?_of_ne hcall
      have hunder : Exchange.countsUnder key ⟨call, .answered (s.answer now call).1⟩ = false :=
        Exchange.countsUnder_of_ne hcall
      rw [read_answer_of_ne ho.distinct hcall] at hcounts hread
      rw [List.countP_cons_of_neg (Bool.eq_false_iff.1 hunder), List.filterMap_cons, hhead,
        Option.map_none]
      exact ⟨hcounts, hread⟩

/-- **A sliding window lets through as many as it has room for,** whoever asks. -/
theorem admits_sliding (h : Answers now s xs s') (ho : s.Orderly l now) (hs : l.rules.Sound)
    (hnow : now < Word.max) (hasks : ∀ x ∈ xs, l.AsksInCheck now x.call)
    (hr : rule ∈ l.rules.rules) (ha : rule.algorithm = .slidingWindow)
    (hkey : l.keyOf rule value (now / 1000) = key) :
    xs.countP (rule.admits key) =
        min (xs.countP (Exchange.countsUnder key)) (rule.limit - (s.read now key).count) ∧
      (s'.read now key).count = (s.read now key).count +
        min (xs.countP (Exchange.countsUnder key)) (rule.limit - (s.read now key).count) := by
  induction h with
  | nil => exact ⟨(Nat.zero_min _).symm, by simp⟩
  | @cons s s' call xs _ ih =>
    rw [List.forall_mem_cons] at hasks
    obtain ⟨hadmits, hread⟩ := ih (ho.answer hs hnow hasks.1.1) hasks.2
    by_cases hcall : call.key = key
    · -- the call passes if there is room, and takes it from the rest
      rcases hasks.1.of_key hs hr (hcall.trans hkey.symm) with ⟨hfixed, -⟩ | ⟨-, hcall⟩
      · rw [ha] at hfixed
        cases hfixed
      · dsimp only at hcall
        rw [hkey] at hcall
        subst hcall
        obtain ⟨hexceeded, hafter⟩ := ho.count_incrementSliding hs hnow hr ha hkey
        rw [Store.answer, hafter] at hadmits hread
        have hhead : rule.admits key ⟨.incrementSliding key rule.window rule.limit now,
            .answered (s.incrementSliding now key rule.window rule.limit now).1⟩ =
              !decide (rule.limit ≤ (s.read now key).count) := by
          rw [← hexceeded, Rule.admits_sliding ha, Exchange.slidingCount?, if_pos rfl]
          rfl
        have hunder : Exchange.countsUnder key
            ⟨.incrementSliding key rule.window rule.limit now,
              .answered (s.incrementSliding now key rule.window rule.limit now).1⟩ = true :=
          Exchange.countsUnder_iff.2 ⟨rfl, rfl⟩
        rw [Store.answer, List.countP_cons_of_pos hunder, List.countP_cons, hhead, hadmits, hread]
        by_cases hfull : rule.limit ≤ (s.read now key).count
        · simp only [hfull, decide_true, Bool.not_true, Bool.false_eq_true, if_true, if_false]
          omega
        · simp only [hfull, decide_false, Bool.not_false, if_true, if_false]
          omega
    · have hunder : Exchange.countsUnder key ⟨call, .answered (s.answer now call).1⟩ = false :=
        Exchange.countsUnder_of_ne hcall
      have hhead : rule.admits key ⟨call, .answered (s.answer now call).1⟩ = false := by
        rw [← Bool.not_eq_true]
        exact fun hadmit =>
          Bool.false_ne_true (hunder.symm.trans (Rule.countsUnder_of_admits hadmit))
      rw [read_answer_of_ne ho.distinct hcall] at hadmits hread
      rw [List.countP_cons_of_neg (Bool.eq_false_iff.1 hhead),
        List.countP_cons_of_neg (Bool.eq_false_iff.1 hunder)]
      exact ⟨hadmits, hread⟩

/-- **A rule lets as many through as it has room for.** -/
theorem countP_admits (h : Answers now s xs s') (ho : s.Orderly l now) (hs : l.rules.Sound)
    (hnow : now < Word.max) (hasks : ∀ x ∈ xs, l.AsksInCheck now x.call)
    (hr : rule ∈ l.rules.rules) (hkey : l.keyOf rule value (now / 1000) = key) :
    xs.countP (rule.admits key) =
      min (xs.countP (Exchange.countsUnder key)) (rule.limit - (s.read now key).count) := by
  cases ha : rule.algorithm with
  | slidingWindow => exact (h.admits_sliding ho hs hnow hasks hr ha hkey).1
  | fixedWindow =>
    obtain ⟨hcounts, -⟩ := h.counts_fixed ho hs hnow hasks hr ha hkey
    have hwithin := congrArg (List.countP (· ≤ rule.limit)) hcounts
    rw [countP_range'_eq, Nat.add_sub_add_right, List.countP_filterMap] at hwithin
    rw [← hwithin]
    congr 1
    funext x
    rw [Rule.admits_fixed ha]
    cases x.fixedCount? key <;> rfl

end Answers

end Store

/-! ## Lookups in flight -/

/-- **Lookups in flight find what was there before,** since checks leave overrides alone. -/
theorem Store.Answers.isIncrement_or_looks {l : Limiter} {now : Nat} {s s' : Store}
    {xs : List Exchange} (h : Answers now s xs s') (hd : s.Distinct)
    (hasks : ∀ x ∈ xs, l.AsksInCheck now x.call) :
    ∀ x ∈ xs, x.call.isIncrement = true ∨ ∃ dimension value,
      x = ⟨.hasMarker (overrideKey l.settings.keySpace dimension value),
        .answered (s.hasMarker now (overrideKey l.settings.keySpace dimension value))⟩ := by
  induction h with
  | nil => exact List.forall_mem_nil _
  | @cons s s' call xs _ ih =>
    rw [List.forall_mem_cons] at hasks
    obtain ⟨⟨hcall, hkind⟩, hrest⟩ := hasks
    -- whichever call this is, it leaves alone what is alive under the keys of overrides
    have hsame : ∀ dimension value,
        (s.answer now call).2.hasMarker now (overrideKey l.settings.keySpace dimension value) =
          s.hasMarker now (overrideKey l.settings.keySpace dimension value) := by
      intro dimension value
      rcases hkind with hcounts | ⟨_, _, hlooks⟩
      · rw [hasMarker, hasMarker,
          live?_answer_of_ne hd now (hcall.key_ne_overrideKey hcounts dimension value)]
      · dsimp only at hlooks
        subst hlooks
        rfl
    refine List.forall_mem_cons.2 ⟨?_, ?_⟩
    · rcases hkind with hcounts | ⟨dimension, value, hlooks⟩
      · exact .inl hcounts
      · dsimp only at hlooks
        subst hlooks
        exact .inr ⟨dimension, value, rfl⟩
    · intro x hx
      rcases ih (hd.answer now call) hrest x hx with hcounts | ⟨dimension, value, hx⟩
      · exact .inl hcounts
      · rw [hsame] at hx
        exact .inr ⟨dimension, value, hx⟩

/-- A conversation that looked for markers, and found them as they are in a store, ends as
it does with that store. -/
theorem Interaction.run_eq_of_goes_of_looks {α : Type} {now : Nat} {s : Store}
    {m : Interaction α} {xs : List Exchange} {value : α} (h : m.Goes xs value)
    (hxs : ∀ x ∈ xs, ∃ key, x = ⟨.hasMarker key, .answered (s.hasMarker now key)⟩) :
    (m.run (Store.reply now) s).1 = value := by
  induction h with
  | done value => rfl
  | ask _ ih =>
    rw [List.forall_mem_cons] at hxs
    obtain ⟨⟨key, hx⟩, hrest⟩ := hxs
    cases hx
    exact ih hrest

namespace Limiter

variable {l : Limiter} {request : Request} {requests : List Request} {now : Nat} {s : Store}
variable {rule : Rule} {value key : String} {xs : List Exchange} {e : Ending} {i : Nat}

/-! ## Checks in flight -/

/-- No check counts twice in one counter. -/
theorem countP_countsUnder_le_one
    (h : xs.Pairwise fun x y => y.call.isIncrement = true → x.call.key ≠ y.call.key)
    (key : String) : xs.countP (Exchange.countsUnder key) ≤ 1 := by
  induction xs with
  | nil => exact Nat.zero_le 1
  | cons x rest ih =>
    rw [List.pairwise_cons] at h
    by_cases hx : x.countsUnder key = true
    · have hrest : rest.countP (Exchange.countsUnder key) = 0 := by
        rw [List.countP_eq_zero]
        intro y hy hunder
        have hcounts := Exchange.countsUnder_iff.1 hunder
        exact h.1 y hy hcounts.1 ((Exchange.countsUnder_iff.1 hx).2.trans hcounts.2.symm)
      rw [List.countP_cons_of_pos hx, hrest]
    · rw [List.countP_cons_of_neg hx]
      exact ih h.2

/-- **A check of a request that one rule governs,** and that no override lets past: it
counts once, and the rule decides. -/
theorem Checks.of_single (h : l.Checks request now xs e) (hon : l.settings.enabled = true)
    (hresolve : l.rules.resolve request = [rule]) (hvalue : rule.valueOf request = some value)
    (hlets : ((l.whitelist.lets l.settings.keySpace l.settings.storeTimeout request).run
      (Store.reply now) s).1 = false)
    (hanswered : ∀ x ∈ xs, x.IsAnswered)
    (hlooks : ∀ x ∈ xs, x.call.isIncrement = true ∨
      ∃ key, x = ⟨.hasMarker key, .answered (s.hasMarker now key)⟩) :
    ∃ (ws : List Exchange) (x : Exchange) (o : Observation), xs = ws ++ [x] ∧
      (∀ w ∈ ws, w.call.isIncrement = false) ∧
      l.Hears rule (CounterKey.forValue rule value (now / 1000)) now x (.ok o) ∧
      e = if o.exceeded then .denied ⟨rule, o⟩ else .passed ⟨rule, o⟩ := by
  cases h with
  | disabled hoff =>
    rw [hon] at hoff
    cases hoff
  | whitelisted _ hw =>
    -- what was looked up is as it was in the store, where it lets nobody past
    have hlooks : ∀ x ∈ xs, ∃ key, x = ⟨.hasMarker key, .answered (s.hasMarker now key)⟩ := by
      intro x hx
      refine (hlooks x hx).resolve_left ?_
      rw [isIncrement_of_lets_goes hw x hx]
      exact Bool.false_ne_true
    have hpast := Interaction.run_eq_of_goes_of_looks hw hlooks
    rw [hlets] at hpast
    cases hpast
  | noRules _ _ hr =>
    rw [hresolve] at hr
    cases hr
  | @asked ws ys _ _ hw _ he =>
    have hkey : CounterKey.forRequest rule request (now / 1000) =
        some (CounterKey.forValue rule value (now / 1000)) := by
      rw [CounterKey.forRequest, hvalue, Option.map_some]
    have hwhite := isIncrement_of_lets_goes hw
    rw [hresolve] at he
    cases he with
    | skipped hnone =>
      rw [hkey] at hnone
      cases hnone
    | @failed _ _ _ x _ _ _ hx =>
      obtain ⟨o, ho⟩ := hx.exists_ok (hanswered x (by simp))
      cases ho
    | @denied _ _ _ x _ o hsome hx ho =>
      rw [hkey, Option.some.injEq] at hsome
      exact ⟨ws, x, o, rfl, hwhite, hsome ▸ hx, (if_pos ho).symm⟩
    | @passes _ _ _ x _ _ o _ hsome hx ho hrest =>
      rw [hkey, Option.some.injEq] at hsome
      cases hrest
      exact ⟨ws, x, o, rfl, hwhite, hsome ▸ hx, (if_neg (Bool.eq_false_iff.1 ho)).symm⟩

/-- Counting in a list is counting its places. -/
theorem countP_eq_countP_getElem? {α : Type} (p : α → Bool) (l : List α) :
    l.countP p = (List.range l.length).countP fun i => l[i]?.any p := by
  induction l with
  | nil => rfl
  | cons a rest ih =>
    rw [List.length_cons, List.range_succ_eq_map, List.countP_cons, List.countP_cons,
      List.countP_map, ih]
    rfl

/-- **A storm of checks:** they are in flight together over a store, and make their calls
in the order of a schedule. -/
def storm (l : Limiter) (now : Nat) (s : Store) (requests : List Request) (schedule : List Nat) :
    List (Nat × Exchange) × Flight (Except Error Decision × List Metric) :=
  Flight.run now ⟨s, requests.map fun request => l.check request now⟩ schedule

/-- Every storm can be finished. -/
theorem exists_finished_storm (l : Limiter) (now : Nat) (s : Store) (requests : List Request)
    (schedule : List Nat) :
    ∃ more, (l.storm now s requests (schedule ++ more)).2.finished = true := by
  obtain ⟨more, hmore⟩ := Flight.exists_finished now (l.storm now s requests schedule).2
  refine ⟨more, ?_⟩
  rw [storm, Flight.run_append]
  exact hmore

/-- How many of the checks in flight have been allowed so far. -/
def allowances (f : Flight (Except Error Decision × List Metric)) : Nat :=
  f.threads.countP fun m => m.value?.any fun answer => answer.1.toOption.any Decision.allowed

/-- A check in a storm has gone a part of its way. -/
theorem leads_storm (l : Limiter) (now : Nat) (s : Store) (hi : requests[i]? = some request)
    (schedule : List Nat) :
    ∃ m, (l.storm now s requests schedule).2.threads[i]? = some m ∧
      (l.check request now).Leads (Flight.own i (l.storm now s requests schedule).1) m := by
  refine Flight.leads_run now ?_ schedule
  rw [List.getElem?_map, hi, Option.map_some]

/-- The exchanges of a check in a storm are the first ones of some check. -/
theorem exists_checks_own (l : Limiter) (now : Nat) (s : Store)
    (hi : requests[i]? = some request) (schedule : List Nat) :
    ∃ ys e, l.Checks request now (Flight.own i (l.storm now s requests schedule).1 ++ ys) e := by
  obtain ⟨m, -, hleads⟩ := leads_storm l now s hi schedule
  obtain ⟨ys, answer, hgoes⟩ := hleads.exists_goes
  obtain ⟨e, hchecks, -⟩ := checks_of_goes hgoes
  exact ⟨ys, e, hchecks⟩

variable {schedule : List Nat} {answer : Except Error Decision × List Metric}

/-- Those of a check that is finished are all of them. -/
theorem checks_own_of_done (hi : requests[i]? = some request)
    (hdone : (l.storm now s requests schedule).2.threads[i]? = some (.done answer)) :
    ∃ e, l.Checks request now (Flight.own i (l.storm now s requests schedule).1) e ∧
      answer.1 = e.result l.settings.failOpen l.settings.keySpace request (now / 1000) := by
  obtain ⟨m, hm, hleads⟩ := leads_storm l now s hi schedule
  rw [hdone, Option.some.injEq] at hm
  subst hm
  have hgoes := hleads.goes (.done answer)
  rw [List.append_nil] at hgoes
  exact checks_of_goes hgoes

theorem lt_of_mem_storm {x : Nat × Exchange} (hx : x ∈ (l.storm now s requests schedule).1) :
    x.1 < requests.length := by
  have hlt := Flight.lt_of_mem_run hx
  rwa [List.length_map] at hlt

/-- Whatever is asked in a storm is asked in a check. -/
theorem asksInCheck_of_mem_storm (hs : l.rules.Sound) {x : Nat × Exchange}
    (hx : x ∈ (l.storm now s requests schedule).1) : l.AsksInCheck now x.2.call := by
  have hi := List.getElem?_eq_getElem (lt_of_mem_storm hx)
  obtain ⟨ys, e, hchecks⟩ := exists_checks_own l now s hi schedule
  have hmem := List.mem_append_left ys (Flight.mem_own.2 hx)
  exact ⟨hchecks.asks hs _ hmem, hchecks.isIncrement_or_looks hs _ hmem⟩

/-- The store answers the calls of a storm one after another. -/
theorem answers_storm (l : Limiter) (now : Nat) (s : Store) (requests : List Request)
    (schedule : List Nat) :
    Store.Answers now s ((l.storm now s requests schedule).1.map Prod.snd)
      (l.storm now s requests schedule).2.store :=
  Flight.answers_run now ⟨s, requests.map fun request => l.check request now⟩ schedule

theorem asksInCheck_of_mem_map (hs : l.rules.Sound) :
    ∀ x ∈ (l.storm now s requests schedule).1.map Prod.snd, l.AsksInCheck now x.call := by
  intro x hx
  obtain ⟨y, hy, rfl⟩ := List.mem_map.1 hx
  exact asksInCheck_of_mem_storm hs hy

/-- A store that a storm has left behind is one that the limiter may have left behind. -/
theorem Reaches.storm (h : l.Reaches now s) (hs : l.rules.Sound) (requests : List Request)
    (schedule : List Nat) : l.Reaches now (l.storm now s requests schedule).2.store := by
  obtain ⟨start, journal, hserves, hasks⟩ := h
  refine ⟨start, _, hserves.append (answers_storm l now s requests schedule).serves, ?_⟩
  refine List.forall_mem_append.2 ⟨hasks, ?_⟩
  intro j hj
  obtain ⟨x, hx, rfl⟩ := List.mem_map.1 hj
  exact (asksInCheck_of_mem_map hs x hx).1

/-- A check in a storm counts in a counter once at most. -/
theorem countP_own_le_one (hs : l.rules.Sound) (hi : i < requests.length) (key : String) :
    (Flight.own i (l.storm now s requests schedule).1).countP (Exchange.countsUnder key) ≤ 1 := by
  obtain ⟨ys, e, hchecks⟩ := exists_checks_own l now s (List.getElem?_eq_getElem hi) schedule
  have hpairwise := hchecks.pairwise_key_ne hs
  rw [List.pairwise_append] at hpairwise
  exact countP_countsUnder_le_one hpairwise.1 key

/-- **A rule lets as many checks through** as calls. -/
theorem countP_admits_storm (hs : l.rules.Sound) (rule : Rule) (key : String) :
    (l.storm now s requests schedule).1.countP (fun x => rule.admits key x.2) =
      (List.range requests.length).countP fun i =>
        (Flight.own i (l.storm now s requests schedule).1).any (rule.admits key) := by
  refine Flight.countP_eq_countP_range (fun x hx => lt_of_mem_storm hx) ?_
  intro i hi
  -- one call of a check at most, so checks and calls that were let through are as many
  have hle : (Flight.own i (l.storm now s requests schedule).1).countP (rule.admits key) ≤ 1 :=
    (List.countP_mono_left fun x _ hx => Rule.countsUnder_of_admits hx).trans
      (countP_own_le_one hs hi key)
  split
  · rename_i hany
    rw [List.any_eq_true, ← List.countP_pos_iff] at hany
    omega
  · rename_i hnone
    rw [List.any_eq_true, ← List.countP_pos_iff] at hnone
    omega

/-- **A check that the rules allowed** was let through by each that governs it. -/
theorem admits_of_allowsBut (hi : requests[i]? = some request)
    (hdone : (l.storm now s requests schedule).2.threads[i]? = some (.done answer))
    (hallows : (Report.decision answer.1 answer.2).allowsBut Report.notByRules = true)
    (hr : rule ∈ l.rules.resolve request) (hvalue : rule.valueOf request = some value) :
    (Flight.own i (l.storm now s requests schedule).1).any
      (rule.admits (l.keyOf rule value (now / 1000))) = true := by
  have hexcused : "disabled" ∈ Report.notByRules ∧ "whitelisted" ∈ Report.notByRules ∧
      "store_failure" ∈ Report.notByRules := by decide
  obtain ⟨e, hchecks, hanswer⟩ := checks_own_of_done hi hdone
  rw [hanswer] at hallows
  have hpasses := Ending.passes_of_allowsBut ⟨hexcused.1, hexcused.2.1⟩ (.inr hexcused.2.2) hallows
  obtain ⟨x, hx, o, hheard, ho⟩ := hchecks.heard_of_passes hpasses rule hr _
    (Service.forRequest_of_valueOf hvalue _)
  rw [List.any_eq_true]
  exact ⟨x, hx, hheard.admits_eq.trans (by rw [ho]; rfl)⟩

/-- **A check in a storm that one rule decides:** it counts once, and is allowed if the
rule lets it through. -/
theorem own_of_single (hs : l.rules.Sound) (hd : s.Distinct) (hon : l.settings.enabled = true)
    (hi : requests[i]? = some request) (hresolve : l.rules.resolve request = [rule])
    (hvalue : rule.valueOf request = some value)
    (hlets : ((l.whitelist.lets l.settings.keySpace l.settings.storeTimeout request).run
      (Store.reply now) s).1 = false)
    (hdone : (l.storm now s requests schedule).2.threads[i]? = some (.done answer))
    (hkey : l.keyOf rule value (now / 1000) = key) :
    (Flight.own i (l.storm now s requests schedule).1).countP (Exchange.countsUnder key) = 1 ∧
      answer.1.toOption.any Decision.allowed =
        (Flight.own i (l.storm now s requests schedule).1).any (rule.admits key) := by
  obtain ⟨e, hchecks, hanswer⟩ := checks_own_of_done hi hdone
  have hanswers := answers_storm l now s requests schedule
  have hown : ∀ x ∈ Flight.own i (l.storm now s requests schedule).1,
      x.IsAnswered ∧ (x.call.isIncrement = true ∨
        ∃ key, x = ⟨.hasMarker key, .answered (s.hasMarker now key)⟩) := by
    intro x hx
    have hmem : x ∈ (l.storm now s requests schedule).1.map Prod.snd :=
      List.mem_map.2 ⟨_, Flight.mem_own.1 hx, rfl⟩
    have hlooks := hanswers.isIncrement_or_looks hd (asksInCheck_of_mem_map hs) x hmem
    exact ⟨hanswers.isAnswered x hmem, hlooks.imp_right fun ⟨_, _, hx⟩ => ⟨_, hx⟩⟩
  obtain ⟨ws, x, o, hxs, hws, hheard, he⟩ := hchecks.of_single hon hresolve hvalue hlets
    (fun x hx => (hown x hx).1) (fun x hx => (hown x hx).2)
  -- the lookups count nowhere, so all there is to say is about the last exchange
  have hunder : ws.countP (Exchange.countsUnder key) = 0 := by
    rw [List.countP_eq_zero]
    intro w hw hcounts
    rw [Exchange.countsUnder_iff, hws w hw] at hcounts
    exact Bool.false_ne_true hcounts.1
  have hnone : ws.any (rule.admits key) = false := by
    rw [List.any_eq_false]
    intro w hw hadmits
    exact List.countP_eq_zero.1 hunder w hw (Rule.countsUnder_of_admits hadmits)
  have hx : rule.admits key x = !o.exceeded := hkey ▸ hheard.admits_eq
  have hcounts : x.countsUnder key = true := hkey ▸ hheard.countsUnder
  rw [hxs, List.countP_append, hunder, List.any_append, hnone, List.any_cons, List.any_nil, hx,
    hanswer, he]
  refine ⟨?_, ?_⟩
  · rw [List.countP_singleton, if_pos hcounts]
  · cases o.exceeded <;> rfl

/-- **One rule, one value:** when all checks of a storm are finished, as many are allowed
as the rule has room for. -/
theorem allowances_of_single (hs : l.rules.Sound) (ho : s.Orderly l now) (hnow : now < Word.max)
    (hr : rule ∈ l.rules.rules) (hkey : l.keyOf rule value (now / 1000) = key)
    (hon : l.settings.enabled = true)
    (hsingle : ∀ request ∈ requests, l.rules.resolve request = [rule] ∧
      rule.valueOf request = some value ∧
      ((l.whitelist.lets l.settings.keySpace l.settings.storeTimeout request).run
        (Store.reply now) s).1 = false)
    (hfinished : (l.storm now s requests schedule).2.finished = true) :
    allowances (l.storm now s requests schedule).2 =
      min requests.length (rule.limit - (s.read now key).count) := by
  have hlength : (l.storm now s requests schedule).2.threads.length = requests.length :=
    (Flight.length_threads_run now _ schedule).trans (List.length_map _)
  -- what every single check contributes
  have hown : ∀ i < requests.length, ∃ answer,
      (l.storm now s requests schedule).2.threads[i]? = some (.done answer) ∧
      (Flight.own i (l.storm now s requests schedule).1).countP (Exchange.countsUnder key) = 1 ∧
      answer.1.toOption.any Decision.allowed =
        (Flight.own i (l.storm now s requests schedule).1).any (rule.admits key) := by
    intro i hi
    obtain ⟨hresolve, hvalue, hlets⟩ := hsingle _ (List.getElem_mem hi)
    have hthread := List.getElem?_eq_getElem (hlength.symm ▸ hi)
    have hvalue? := List.all_eq_true.1 hfinished _ (List.getElem_mem (hlength.symm ▸ hi))
    obtain ⟨answer, hanswer⟩ := Option.isSome_iff_exists.1 hvalue?
    rw [Interaction.eq_done_of_value? hanswer] at hthread
    exact ⟨answer, hthread, own_of_single hs ho.distinct hon (List.getElem?_eq_getElem hi) hresolve
      hvalue hlets hthread hkey⟩
  have hcounted : (l.storm now s requests schedule).1.countP (fun x => x.2.countsUnder key) =
      requests.length := by
    rw [Flight.countP_eq_countP_range (p := fun _ => true) (fun x hx => lt_of_mem_storm hx)]
    · simp
    · intro i hi
      obtain ⟨-, -, hone, -⟩ := hown i hi
      exact hone
  have hadmitted := (answers_storm l now s requests schedule).countP_admits ho hs hnow
    (asksInCheck_of_mem_map hs) hr hkey
  rw [List.countP_map, List.countP_map] at hadmitted
  change (l.storm now s requests schedule).1.countP (fun x => rule.admits key x.2) =
    min ((l.storm now s requests schedule).1.countP fun x => x.2.countsUnder key) _ at hadmitted
  rw [countP_admits_storm hs, hcounted] at hadmitted
  rw [allowances, countP_eq_countP_getElem?, hlength, ← hadmitted]
  refine List.countP_congr ?_
  intro i hi
  obtain ⟨answer, hthread, -, hallowed⟩ := hown i (List.mem_range.1 hi)
  rw [hthread, ← hallowed]
  rfl

end Limiter

/-- **No update is lost in a storm.** Take a limiter with rules that could be made, a
store that it may have left behind, and any number of checks that make their calls in any
order, at one time and without a failure. `c` is what reading a counter of a rule showed
before, and `m` the number of calls on it.

A fixed window hands out the numbers `c + 1` to `c + m`, each once and in turn, and ends
at `c + m`. A sliding window lets through as many calls as it has room for, all `m` or
`limit - c` of them, and holds so many more in the end. So the rule lets no more checks
through than there is room for, and a check that the rules have allowed is among them. If
the rule is the only one for all the checks, and none of them is whitelisted, then as many
are allowed as there is room for, once they are finished.

No other counter is called, and every schedule can be continued until all checks are
finished. -/
theorem no_update_lost_in_storm {rules : List Rule} {defaults : DefaultLimits} {set : RuleSet}
    (hbuild : RuleSet.build rules defaults = .ok set) (settings : LimiterSettings)
    (whitelist : Whitelist) {now : Nat} (hnow : now < Word.max) {s : Store}
    (hreach : (Limiter.mk settings set whitelist).Reaches now s) (requests : List Request)
    (schedule : List Nat) :
    let l : Limiter := ⟨settings, set, whitelist⟩
    let transcript := (l.storm now s requests schedule).1
    let after := (l.storm now s requests schedule).2
    (∀ rule ∈ set.rules, ∀ value,
      let key := l.keyOf rule value (now / 1000)
      let c := (s.read now key).count
      let m := transcript.countP fun x => x.2.countsUnder key
      let letsThrough (i : Nat) := (Flight.own i transcript).any (rule.admits key)
      (rule.algorithm = .fixedWindow →
        (transcript.filterMap fun x => (x.2.fixedCount? key).map FixedCount.count) =
            List.range' (c + 1) m ∧
          (after.store.read now key).count = c + m) ∧
      (rule.algorithm = .slidingWindow →
        (transcript.countP fun x => (x.2.slidingCount? key).any (!·.exceeded)) =
            min m (rule.limit - c) ∧
          (after.store.read now key).count = c + min m (rule.limit - c)) ∧
      (List.range requests.length).countP letsThrough = min m (rule.limit - c) ∧
      (∀ i request answer, requests[i]? = some request → rule ∈ set.resolve request →
        rule.valueOf request = some value → after.threads[i]? = some (.done answer) →
        (Report.decision answer.1 answer.2).allowsBut Report.notByRules = true →
          letsThrough i = true) ∧
      (settings.enabled = true →
        (∀ request ∈ requests, set.resolve request = [rule] ∧ rule.valueOf request = some value ∧
          ((whitelist.lets settings.keySpace settings.storeTimeout request).run
            (Store.reply now) s).1 = false) →
        after.finished = true →
          Limiter.allowances after = min requests.length (rule.limit - c))) ∧
    (∀ x ∈ transcript, x.2.call.isIncrement = true →
      ∃ rule ∈ set.rules, ∃ value, x.2.call.key = l.keyOf rule value (now / 1000)) ∧
    ∃ more, (l.storm now s requests (schedule ++ more)).2.finished = true := by
  have hs : set.Sound := RuleSet.sound_of_build hbuild
  intro l transcript after
  have ho : s.Orderly l now := hreach.orderly hs hnow
  have hanswers : Store.Answers now s (transcript.map Prod.snd) after.store :=
    l.answers_storm now s requests schedule
  have hasks : ∀ x ∈ transcript.map Prod.snd, l.AsksInCheck now x.call :=
    Limiter.asksInCheck_of_mem_map hs
  refine ⟨?_, ?_, ?_⟩
  · intro rule hr value key c m letsThrough
    have hkey : l.keyOf rule value (now / 1000) = key := rfl
    have hm : (transcript.map Prod.snd).countP (Exchange.countsUnder key) = m :=
      List.countP_map
    refine ⟨?_, ?_, ?_, ?_, ?_⟩
    · intro ha
      have hcounts := hanswers.counts_fixed ho hs hnow hasks hr ha hkey
      rw [hm, List.filterMap_map] at hcounts
      exact hcounts
    · intro ha
      have hadmits := hanswers.admits_sliding ho hs hnow hasks hr ha hkey
      rw [hm, List.countP_map] at hadmits
      refine ⟨Eq.trans ?_ hadmits.1, hadmits.2⟩
      congr 1
      funext x
      exact (Rule.admits_sliding ha key x.2).symm
    · have hadmits := hanswers.countP_admits ho hs hnow hasks hr hkey
      rw [hm, List.countP_map] at hadmits
      exact (Limiter.countP_admits_storm hs rule key).symm.trans hadmits
    · intro i request answer hi hgoverns hvalue hdone hallows
      exact Limiter.admits_of_allowsBut hi hdone hallows hgoverns hvalue
    · intro hon hsingle hfinished
      exact Limiter.allowances_of_single hs ho hnow hr hkey hon hsingle hfinished
  · intro x hx hcounts
    exact (Limiter.asksInCheck_of_mem_storm hs hx).1.exists_keyOf hcounts
  · exact l.exists_finished_storm now s requests schedule

/-! ## A storm -/

namespace StormSample

/-- Three requests a minute from each address. -/
def rule : Rule := Rule.basic "login" .address 3 60

/-- A limiter that looks for overrides first. -/
def limiter : Limiter := ⟨⟨true, false, 50, "turnstile"⟩, ⟨[rule]⟩, ⟨[], [], [], true⟩⟩

def request : Request := .describe "POST" "/login" "10.0.0.1"

/-- What one check has left behind. -/
def store : Store := ((Service.start limiter 30000).after .none [.check request]).backend.store

/-- The counter of the first minute. -/
def key : String := limiter.keyOf rule "10.0.0.1" 30

end StormSample

open StormSample in
/-- Three more checks make their calls by turns, and two of them are allowed: those that
come second and third to the counter, in which there was one before. -/
theorem no_update_lost_in_storm_of_login :
    let storm := limiter.storm 30000 store [request, request, request] [0, 1, 2, 2, 0, 1]
    storm.1.map Prod.fst = [0, 1, 2, 2, 0, 1] ∧
      (storm.1.filterMap fun x => (x.2.fixedCount? key).map FixedCount.count) = [2, 3, 4] ∧
      Limiter.allowances storm.2 = 2 := by
  intro storm
  have hbuild : RuleSet.build [rule] .empty = .ok ⟨[rule]⟩ := rfl
  have hs : limiter.rules.Sound := RuleSet.sound_of_build hbuild
  have hreload : ∀ command ∈ [Command.check request], command.isReload = false := by decide
  have hclock : (Clock.mk 30000).Steady [.check request] := by decide
  have htime : ((Service.start limiter 30000).after .none [.check request]).now = 30000 := by
    decide +kernel
  have hreach := Service.reaches_after Disturbance.onlyOutages_none hreload hclock hs
  rw [htime] at hreach
  obtain ⟨hcounter, -, -⟩ := no_update_lost_in_storm hbuild limiter.settings limiter.whitelist
    (by decide) hreach [request, request, request] [0, 1, 2, 2, 0, 1]
  obtain ⟨hcounts, -, -, -, hallowed⟩ := hcounter rule List.mem_cons_self "10.0.0.1"
  have hread : (store.read 30000 key).count = 1 := by decide +kernel
  have hcalls : storm.1.countP (fun x => x.2.countsUnder key) = 3 := by decide +kernel
  refine ⟨by decide +kernel, ?_, ?_⟩
  · refine (hcounts rfl).1.trans ?_
    change List.range' ((store.read 30000 key).count + 1)
      (storm.1.countP fun x => x.2.countsUnder key) = [2, 3, 4]
    rw [hread, hcalls]
    rfl
  · refine (hallowed rfl ?_ ?_).trans ?_
    · decide +kernel
    · decide +kernel
    · change min 3 (3 - (store.read 30000 key).count) = 2
      rw [hread]
      rfl

end Admission
