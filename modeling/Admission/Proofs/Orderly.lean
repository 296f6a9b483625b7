/-
Stores in which every counter is what its rule takes it for.

Under the key of a fixed-window rule there is a fixed counter or nothing, and under
that of a sliding-window rule a log that keeps its past (`Rule.Suits`). A limiter
cannot upset this, whatever it asks (`Store.Orderly.answer`), since no two rules
share a key; and in such a store reading a counter tells what counting in it will be
answered (`Limiter.observe_of_orderly`).
-/
import Admission.Proofs.FixedWindow
import Admission.Proofs.SlidingWindow

set_option autoImplicit false

namespace Admission

/-! ## Cells that suit a rule -/

/-- **What a rule may find under its keys.** -/
def Rule.Suits (r : Rule) (now : Nat) (cell : Option Entry) : Prop :=
  match r.algorithm with
  | .fixedWindow => ∀ e, cell = some e → ∃ c, e = .fixed c
  | .slidingWindow => ∃ past, Logged r.window now past cell

namespace Rule

variable {r : Rule} {now : Nat} {cell after : Option Entry}

theorem suits_fixed_iff (ha : r.algorithm = .fixedWindow) :
    r.Suits now cell ↔ ∀ e, cell = some e → ∃ c, e = .fixed c := by
  rw [Suits, ha]

theorem suits_sliding_iff (ha : r.algorithm = .slidingWindow) :
    r.Suits now cell ↔ ∃ past, Logged r.window now past cell := by
  rw [Suits, ha]

/-- Where nothing is any rule may begin. -/
theorem Suits.none (r : Rule) (now : Nat) : r.Suits now .none := by
  cases ha : r.algorithm with
  | fixedWindow =>
    rw [suits_fixed_iff ha]
    intro e he
    cases he
  | slidingWindow =>
    rw [suits_sliding_iff ha]
    exact ⟨[], Logged.none r.window now⟩

theorem Suits.later {mid : Nat} (h : r.Suits now cell) (hle : now ≤ mid) : r.Suits mid cell := by
  cases ha : r.algorithm with
  | fixedWindow =>
    rw [suits_fixed_iff ha] at h ⊢
    exact h
  | slidingWindow =>
    rw [suits_sliding_iff ha] at h ⊢
    obtain ⟨past, hlogged⟩ := h
    exact ⟨past, hlogged.later hle⟩

theorem Suits.fades (h : r.Suits now cell) (hnow : now < Word.max) (hf : Fades now cell after) :
    r.Suits now after := by
  cases ha : r.algorithm with
  | fixedWindow =>
    rw [suits_fixed_iff ha] at h ⊢
    rcases hf with rfl | ⟨rfl, -⟩
    · exact h
    · intro e he
      cases he
  | slidingWindow =>
    rw [suits_sliding_iff ha] at h ⊢
    obtain ⟨past, hlogged⟩ := h
    exact ⟨past, hlogged.fades hnow hf⟩

end Rule

/-! ## Orderly stores -/

/-- The key of a rule for a value at some time, as it is written. -/
def Limiter.keyOf (l : Limiter) (r : Rule) (value : String) (seconds : Nat) : String :=
  (CounterKey.forValue r value seconds).render l.settings.keySpace

/-- **A store in which every counter is what its rule takes it for.** -/
structure Store.Orderly (l : Limiter) (now : Nat) (s : Store) : Prop where
  distinct : s.Distinct
  suits : ∀ rule ∈ l.rules.rules, ∀ value seconds,
    rule.Suits now (s.find? (l.keyOf rule value seconds))

namespace Store

variable {l : Limiter} {now : Nat} {s : Store}

theorem orderly_empty (l : Limiter) (now : Nat) : empty.Orderly l now :=
  ⟨distinct_empty, fun rule _ _ _ => Rule.Suits.none rule now⟩

namespace Orderly

theorem later {mid : Nat} (h : s.Orderly l now) (hle : now ≤ mid) : s.Orderly l mid :=
  ⟨h.distinct, fun rule hr value seconds => (h.suits rule hr value seconds).later hle⟩

theorem sweep (h : s.Orderly l now) (hnow : now < Word.max) : (s.sweep now).Orderly l now :=
  ⟨h.distinct.sweep now, fun rule hr value seconds =>
    (h.suits rule hr value seconds).fades hnow (fades_sweep h.distinct now _)⟩

/-- **A store stays orderly,** whatever a limiter asks. -/
theorem answer (h : s.Orderly l now) (hs : l.rules.Sound) (hnow : now < Word.max) {call : Call}
    (hasks : l.Asks now call) : (s.answer now call).2.Orderly l now := by
  refine ⟨h.distinct.answer now call, ?_⟩
  intro rule hr value seconds
  have hsuits := h.suits rule hr value seconds
  by_cases hkey : call.key = l.keyOf rule value seconds
  · -- whoever counts under the rule's key is the rule itself
    rcases hasks.of_key hkey with ⟨asked, hasked, hfor, hcall⟩ | hcall | hcall
    · have hsame : asked = rule := hs.eq_of_id hasked hr (congrArg CounterKey.ruleId hfor)
      subst hsame
      rw [hkey] at hcall
      rcases hcall with ⟨ha, hcall⟩ | ⟨ha, hcall⟩
      · rw [hcall, Rule.suits_fixed_iff ha]
        rcases fades_countWrite_put h.distinct now (l.keyOf asked value seconds)
          (.fixed (s.liveFixed now (l.keyOf asked value seconds) asked.window).increment)
          with hcell | ⟨hcell, -⟩
        · intro e he
          exact ⟨_, (Option.some.inj (hcell.symm.trans he)).symm⟩
        · intro e he
          cases hcell.symm.trans he
      · rw [hcall, Rule.suits_sliding_iff ha]
        obtain ⟨past, hlogged⟩ := (Rule.suits_sliding_iff ha).1 hsuits
        exact ⟨_, (logged_incrementSliding h.distinct hnow hlogged asked.limit).2⟩
    · rw [hcall]
      exact hsuits
    · rw [hkey] at hcall
      rw [hcall, Store.answer, reset, find?_erase, if_pos rfl]
      exact Rule.Suits.none rule now
  · exact hsuits.fades hnow (fades_answer_of_ne h.distinct now hkey)

end Orderly

/-- **A store stays orderly over a journal** of a limiter's calls. -/
theorem Serves.orderly {later : Nat} {s' : Store} {js : List (Nat × Exchange)} (h : Serves now s js later s')
    (ho : s.Orderly l now) (hs : l.rules.Sound) (hlater : later < Word.max)
    (hasks : ∀ j ∈ js, l.Asks j.1 j.2.call) : s'.Orderly l later := by
  induction h with
  | nil => exact ho
  | answered hrest ih =>
    rw [List.forall_mem_cons] at hasks
    exact ih (ho.answer hs (hrest.le.trans_lt hlater) hasks.1) hlater hasks.2
  | refused _ _ ih =>
    rw [List.forall_mem_cons] at hasks
    exact ih ho hlater hasks.2
  | swept hrest ih => exact ih (ho.sweep (hrest.le.trans_lt hlater)) hlater hasks
  | waited hle _ ih => exact ih (ho.later hle) hlater hasks

/-! ## Reading -/

/-- Reading where there is a fixed counter at most: it shows what an increment goes on
from. -/
theorem count_read_fixed {key : String} (h : ∀ e, s.find? key = some e → ∃ c, e = .fixed c)
    (window : Nat) : (s.read now key).count = (s.liveFixed now key window).count := by
  by_cases hfaded : Faded now (s.find? key)
  · rw [read, live?_of_faded hfaded, liveFixed_of_faded hfaded]
    rfl
  · obtain ⟨e, hcell, halive⟩ := exists_of_not_faded hfaded
    obtain ⟨c, rfl⟩ := h e hcell
    rw [read, live?_of_alive hcell halive, liveFixed_of_alive hcell halive]
    rfl

/-- Reading a log counts the window that trails the present. -/
theorem count_read_sliding {key : String} {window : Nat} {past : List Nat}
    (h : Logged window now past (s.find? key)) (hnow : now < Word.max) :
    (s.read now key).count = trailing window now past := by
  obtain ⟨l, hcell, hkeeps⟩ := h
  by_cases hfaded : Faded now (s.find? key)
  · -- nothing alive is there, so the window that trails now is empty
    have hgone : ∀ instant ∈ past, instant + window ≤ now := by
      rcases hcell with ⟨-, rfl⟩ | hcell
      · exact hkeeps.left_of_isExpired hnow (decide_eq_true (Nat.zero_le now))
      · exact hkeeps.left_of_isExpired hnow (hfaded _ hcell)
    rw [read, live?_of_faded hfaded, trailing_eq_zero hgone]
    rfl
  · obtain ⟨e, hsome, halive⟩ := exists_of_not_faded hfaded
    rcases hcell with ⟨hnone, -⟩ | hcell
    · rw [hnone] at hsome
      cases hsome
    · rw [hcell, Option.some.injEq] at hsome
      subst hsome
      rw [read, live?_of_alive hcell halive, ← hkeeps.count_eq hnow]
      rfl

/-- A counter that was just counted in is alive. -/
theorem count_read_incrementFixed {key : String} {window : Nat} (hd : s.Distinct)
    (hnow : now < Word.max) (hwindow : 0 < window) :
    ((s.incrementFixed now key window).2.read now key).count =
      (s.incrementFixed now key window).1.count := by
  have hlive : (s.liveFixed now key window).isExpired now = false := by
    have hstart := FixedCounter.isExpired_start hnow hwindow
    unfold liveFixed
    split
    · split
      · exact hstart
      · rename_i hc
        exact Bool.eq_false_iff.2 hc
    · exact hstart
  have hcell := (fades_countWrite_put hd now key
    (.fixed (s.liveFixed now key window).increment)).eq_of_alive hlive
  rw [incrementFixed, read, live?_of_alive hcell hlive]
  rfl

end Store

/-! ## Counting where reading has been -/

namespace Limiter

variable {l : Limiter} {now : Nat} {s : Store} {rule : Rule}

/-- **A request that is counted as reading foretells:** the rule is exceeded if and only
if reading its counter shows the limit, the counter shows the request unless it is a
full sliding window, and what stands under other keys stays alive. -/
structure Counted (l : Limiter) (rule : Rule) (value : String) (now : Nat) (s : Store)
    (o : Observation) (s' : Store) : Prop where
  exceeded_iff : o.exceeded = true ↔
    rule.limit ≤ (s.read now (l.keyOf rule value (now / 1000))).count
  count : (s'.read now (l.keyOf rule value (now / 1000))).count =
    (s.read now (l.keyOf rule value (now / 1000))).count +
      (if o.exceeded = true ∧ rule.algorithm = .slidingWindow then 0 else 1)
  orderly : s'.Orderly l now
  frame : ∀ other, other ≠ l.keyOf rule value (now / 1000) →
    s'.live? now other = s.live? now other

/-- Observing a fixed window of a store that never fails. -/
theorem run_observe_fixed (ha : rule.algorithm = .fixedWindow) (value : String) (now : Nat)
    (s : Store) :
    (l.observe rule (CounterKey.forValue rule value (now / 1000)) now).run (Store.reply now) s =
      (.ok (Observation.ofFixed rule (CounterKey.forValue rule value (now / 1000)) now
          (s.incrementFixed now (l.keyOf rule value (now / 1000)) rule.window).1),
        (s.incrementFixed now (l.keyOf rule value (now / 1000)) rule.window).2) := by
  rw [observe, ha]
  rfl

/-- And a sliding one. -/
theorem run_observe_sliding (ha : rule.algorithm = .slidingWindow) (value : String) (now : Nat)
    (s : Store) :
    (l.observe rule (CounterKey.forValue rule value (now / 1000)) now).run (Store.reply now) s =
      (.ok (Observation.ofSliding (CounterKey.forValue rule value (now / 1000))
          (s.incrementSliding now (l.keyOf rule value (now / 1000)) rule.window rule.limit now).1),
        (s.incrementSliding now (l.keyOf rule value (now / 1000)) rule.window rule.limit now).2) := by
  rw [observe, ha]
  rfl

theorem observe_fixed_of_orderly (value : String) (hs : l.rules.Sound) (hnow : now < Word.max)
    (ho : s.Orderly l now) (hr : rule ∈ l.rules.rules) (ha : rule.algorithm = .fixedWindow) :
    ∃ o s', (l.observe rule (CounterKey.forValue rule value (now / 1000)) now).run
        (Store.reply now) s = (.ok o, s') ∧ l.Counted rule value now s o s' := by
  have hsuits := ho.suits rule hr value (now / 1000)
  rw [Rule.suits_fixed_iff ha] at hsuits
  have hread : (s.read now (l.keyOf rule value (now / 1000))).count =
      (s.liveFixed now (l.keyOf rule value (now / 1000)) rule.window).count :=
    Store.count_read_fixed hsuits rule.window
  have hcount : (s.incrementFixed now (l.keyOf rule value (now / 1000)) rule.window).1.count =
      (s.read now (l.keyOf rule value (now / 1000))).count + 1 := by
    rw [hread]
    rfl
  have hasks : l.Asks now (.incrementFixed (l.keyOf rule value (now / 1000)) rule.window) :=
    .incrementFixed hr ha value
  refine ⟨_, _, run_observe_fixed ha value now s, ?_, ?_, ho.answer hs hnow hasks, ?_⟩
  · rw [Observation.ofFixed, decide_eq_true_iff, hcount]
    exact Nat.lt_succ_iff
  · rw [if_neg (by simp [ha])]
    refine Eq.trans ?_ hcount
    exact Store.count_read_incrementFixed ho.distinct hnow (Rule.window_pos (hs.window_pos _ hr))
  · intro other hne
    have hother : (Call.incrementFixed (l.keyOf rule value (now / 1000)) rule.window).key ≠ other :=
      Ne.symm hne
    exact Store.live?_answer_of_ne ho.distinct now hother

theorem observe_sliding_of_orderly (value : String) (hs : l.rules.Sound) (hnow : now < Word.max)
    (ho : s.Orderly l now) (hr : rule ∈ l.rules.rules) (ha : rule.algorithm = .slidingWindow) :
    ∃ o s', (l.observe rule (CounterKey.forValue rule value (now / 1000)) now).run
        (Store.reply now) s = (.ok o, s') ∧ l.Counted rule value now s o s' := by
  have hsuits := ho.suits rule hr value (now / 1000)
  rw [Rule.suits_sliding_iff ha] at hsuits
  obtain ⟨past, hlogged⟩ := hsuits
  -- the window before the attempt and after it, from the same past
  have hread := Store.count_read_sliding hlogged hnow
  obtain ⟨⟨hpasses, -⟩, hlater⟩ :=
    Store.logged_incrementSliding ho.distinct hnow hlogged rule.limit
  have hafter := Store.count_read_sliding hlater hnow
  have hasks : l.Asks now
      (.incrementSliding (l.keyOf rule value (now / 1000)) rule.window rule.limit now) :=
    .incrementSliding hr ha value
  have horderly := ho.answer hs hnow hasks
  have hframe : ∀ other, other ≠ l.keyOf rule value (now / 1000) →
      (s.answer now (.incrementSliding (l.keyOf rule value (now / 1000)) rule.window rule.limit
        now)).2.live? now other = s.live? now other :=
    fun other hne => Store.live?_answer_of_ne ho.distinct now (Ne.symm hne)
  rw [Store.answer] at horderly hframe
  have hobserve := run_observe_sliding (l := l) ha value now s
  generalize s.incrementSliding now (l.keyOf rule value (now / 1000)) rule.window
    rule.limit now = outcome at hpasses hlater hafter horderly hframe hobserve
  refine ⟨_, _, hobserve, ?_, ?_, horderly, hframe⟩
  · rw [hread, ← not_lt, ← hpasses, Bool.not_eq_false, Observation.ofSliding]
  · rw [hafter, hread, trailing_append, Observation.ofSliding]
    cases outcome.1.exceeded with
    | true => simp [trailing, ha]
    | false =>
      have hone : trailing rule.window now [now] = 1 := by
        have hpos : 0 < rule.window := Rule.window_pos (hs.window_pos _ hr)
        rw [trailing, List.countP_singleton, if_pos (decide_eq_true (by omega))]
      simp [hone]

/-- **Reading foretells counting** in an orderly store. -/
theorem observe_of_orderly (value : String) (hs : l.rules.Sound) (hnow : now < Word.max)
    (ho : s.Orderly l now) (hr : rule ∈ l.rules.rules) :
    ∃ o s', (l.observe rule (CounterKey.forValue rule value (now / 1000)) now).run
        (Store.reply now) s = (.ok o, s') ∧ l.Counted rule value now s o s' := by
  cases ha : rule.algorithm with
  | fixedWindow => exact observe_fixed_of_orderly value hs hnow ho hr ha
  | slidingWindow => exact observe_sliding_of_orderly value hs hnow ho hr ha

end Limiter

/-- **Every store that a limiter has worked on is orderly.** -/
theorem Service.orderly_after {d : Disturbance} (hd : d.OnlyOutages) {s : Service}
    {commands : List Command} (hreload : ∀ command ∈ commands, command.isReload = false)
    (hclock : s.backend.clock.Steady commands) (hs : s.limiter.rules.Sound)
    (ho : s.backend.store.Orderly s.limiter s.now) :
    (s.after d commands).backend.store.Orderly s.limiter (s.after d commands).now := by
  exact (chronicle_serves hd hclock).orderly ho hs (now_after_lt hd hclock)
    (asks_of_mem_journal hreload hs)

end Admission
