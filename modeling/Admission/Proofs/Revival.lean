/-
Attempts that revive a log.

A log whose time is over is absent to every operation but one: an attempt on a sliding
window goes on from the log it finds. If the window of the attempt still reaches an
instant of the log, the log counts again (`Store.revives`). That takes a window longer
than the one under which the instant was recorded: a log lives until each of its
instants has left that window, or any shorter one (`Outlasts`). So no log is revived as
long as no reload puts a longer window in force (`Service.everRevives_eq_false`).
-/
import Admission.Proofs.SlidingWindow

set_option autoImplicit false

namespace Admission

namespace Store

/-- **Whether a call revives a log:** it is an attempt on a log whose time is over, and
an instant of the log is still inside the window of the attempt. -/
def revives (now : Nat) (s : Store) : Call → Bool
  | .incrementSliding key window _ instant =>
    match s.find? key with
    | some (.sliding l) => l.isExpired now &&
        l.instants.any fun entry => !SlidingLog.hasLeft (Word.clamp window) instant entry
    | _ => false
  | _ => false

theorem revives_incrementSliding_iff {now : Nat} {s : Store} {key : String}
    {window limit instant : Nat} :
    s.revives now (.incrementSliding key window limit instant) = true ↔
      ∃ l, s.find? key = some (.sliding l) ∧ l.isExpired now = true ∧
        ∃ entry ∈ l.instants, SlidingLog.hasLeft (Word.clamp window) instant entry = false := by
  unfold revives
  dsimp only
  split
  · rename_i l hl
    rw [hl, Bool.and_eq_true, List.any_eq_true]
    simp only [Bool.not_eq_true', Option.some.injEq, Entry.sliding.injEq, exists_eq_left']
  · rename_i hne
    refine iff_of_false Bool.false_ne_true ?_
    rintro ⟨l, hl, -⟩
    exact hne l hl

theorem isIncrement_of_revives {now : Nat} {s : Store} {call : Call}
    (h : s.revives now call = true) : call.isIncrement = true := by
  cases call with
  | incrementSliding => rfl
  | incrementFixed | read | reset | setMarker | hasMarker => cases h

/-- What is revived is over. -/
theorem exists_expired_of_revives {now : Nat} {s : Store} {call : Call}
    (h : s.revives now call = true) :
    ∃ e, s.find? call.key = some e ∧ e.isExpired now = true := by
  cases call with
  | incrementSliding key window limit instant =>
    obtain ⟨l, hl, hexpired, -⟩ := revives_incrementSliding_iff.1 h
    exact ⟨.sliding l, hl, hexpired⟩
  | incrementFixed | read | reset | setMarker | hasMarker => cases h

end Store

/-- What an attempt meets stood there from the start of the conversation, if nothing in
it touched the key before. -/
theorem Interaction.fades_of_moment {α : Type} {now : Nat} {m : Interaction α} {s : Store}
    (hs : s.Distinct) {moment : Store × Call} (hmoment : moment ∈ m.moments (Store.reply now) s)
    (hcounts : moment.2.isIncrement = true)
    (hfirst : (m.exchanges (Store.reply now) s).Pairwise
      fun x y => y.call.isIncrement = true → x.call.key ≠ y.call.key) :
    Fades now (s.find? moment.2.key) (moment.1.find? moment.2.key) := by
  induction m generalizing s with
  | done value => cases hmoment
  | ask call next ih =>
    rw [exchanges_ask, List.pairwise_cons] at hfirst
    rcases List.mem_cons.1 hmoment with rfl | hmoment
    · exact .refl _ _
    · -- the call before it is about another key, which fades at most
      obtain ⟨x, hx, hcall⟩ := exists_exchange_of_moment hmoment
      have hne : call.key ≠ moment.2.key := by
        rw [← hcall] at hcounts ⊢
        exact hfirst.1 x hx hcounts
      exact (Store.fades_answer_of_ne hs now hne).trans
        (ih _ (hs.answer now call) hmoment hfirst.2)

/-! ## Logs that outlast a window -/

/-- **A log outlasts a window** if it lives at least until each of its instants has left
the window. -/
def Outlasts (window now : Nat) (cell : Option Entry) : Prop :=
  ∀ l, cell = some (.sliding l) → ∀ instant ∈ l.instants,
    instant ≤ now ∧ Word.add instant (Word.clamp window) ≤ l.expiresAt

namespace Outlasts

variable {window now : Nat} {cell after : Option Entry}

theorem none (window now : Nat) : Outlasts window now .none := by
  intro l hl
  cases hl

theorem later {mid : Nat} (h : Outlasts window now cell) (hle : now ≤ mid) :
    Outlasts window mid cell := by
  intro l hl instant hinstant
  obtain ⟨hinstant, hexpires⟩ := h l hl instant hinstant
  exact ⟨hinstant.trans hle, hexpires⟩

theorem fades (h : Outlasts window now cell) (hf : Fades now cell after) :
    Outlasts window now after := by
  rcases hf with rfl | ⟨rfl, -⟩
  · exact h
  · exact Outlasts.none window now

/-- **An attempt leaves a log that outlasts** what it outlasted before, if that is no
longer than the window of the attempt. -/
theorem attempt {l : SlidingLog} {longer : Nat} (h : Outlasts window now (some (.sliding l)))
    (hle : window ≤ longer) (limit : Nat) :
    Outlasts window now (some (.sliding (l.attempt now longer limit).2)) := by
  rintro _ ⟨⟩
  have hkept : ∀ instant ∈ l.instants.dropWhile (SlidingLog.hasLeft (Word.clamp longer) now),
      instant ≤ now ∧ Word.add instant (Word.clamp window) ≤ l.expiresAt :=
    fun instant hinstant => h l rfl instant ((List.dropWhile_sublist _).subset hinstant)
  rw [SlidingLog.attempt, SlidingLog.trim]
  dsimp only
  split
  · exact hkept
  · -- a recorded log lives until the present has left the longer window
    intro instant hinstant
    have hinstant : instant ≤ now := by
      rcases List.mem_append.1 hinstant with hinstant | hinstant
      · exact (hkept instant hinstant).1
      · exact (List.mem_singleton.1 hinstant).le
    refine ⟨hinstant, ?_⟩
    dsimp only
    rw [Word.add, Word.add, Word.clamp, Word.clamp, Word.clamp, Word.clamp]
    omega

end Outlasts

namespace Store

variable {window now later : Nat} {s s' : Store} {key : String}

/-- A log that outlasts the window of an attempt is not revived by it. -/
theorem revives_eq_false_of_outlasts (hnow : now < Word.max)
    (h : Outlasts window now (s.find? key)) (limit : Nat) :
    s.revives now (.incrementSliding key window limit now) = false := by
  rw [Bool.eq_false_iff]
  intro hrevives
  obtain ⟨l, hl, hexpired, instant, hinstant, hleft⟩ := revives_incrementSliding_iff.1 hrevives
  rw [SlidingLog.isExpired_iff] at hexpired
  have hover := SlidingLog.left_of_add_le hnow ((h l hl instant hinstant).2.trans hexpired)
  rw [← SlidingLog.hasLeft_iff hnow, hleft] at hover
  cases hover

/-- The log that an attempt continues outlasts what the one under the key does. -/
theorem outlasts_slidingLog (h : Outlasts window now (s.find? key)) (longer : Nat) :
    Outlasts window now (some (.sliding (s.slidingLog key longer))) := by
  rintro _ ⟨⟩
  unfold slidingLog
  split
  · rename_i l hl
    exact h l hl
  · exact List.forall_mem_nil _

/-- **What a call leaves outlasts a window** if it did before and the call is no attempt
with a shorter one. -/
theorem outlasts_answer (hd : s.Distinct) {call : Call}
    (hcall : ∀ longer limit instant, call = .incrementSliding key longer limit instant →
      window ≤ longer ∧ instant = now)
    (h : Outlasts window now (s.find? key)) :
    Outlasts window now ((s.answer now call).2.find? key) := by
  by_cases hkey : call.key = key
  · subst hkey
    cases call with
    | incrementFixed key longer =>
      have hfixed : Outlasts window now (some (.fixed (s.liveFixed now key longer).increment)) := by
        intro l hl
        cases hl
      exact hfixed.fades (fades_countWrite_put hd now key _)
    | incrementSliding key longer limit instant =>
      obtain ⟨hle, rfl⟩ := hcall longer limit instant rfl
      exact ((outlasts_slidingLog h longer).attempt hle limit).fades
        (fades_countWrite_put hd instant key _)
    | read | hasMarker => exact h
    | reset key =>
      rw [answer, reset, Call.key, find?_erase, if_pos rfl]
      exact Outlasts.none window now
    | setMarker key ttl =>
      refine Outlasts.fades ?_ (fades_countWrite_put hd now key _)
      intro l hl
      cases hl
  · exact h.fades (fades_answer_of_ne hd now hkey)

/-- **A log outlasts a window over a journal** of attempts with no shorter windows. -/
theorem Serves.outlasts {js : List (Nat × Exchange)} (hserves : Serves now s js later s')
    (hd : s.Distinct)
    (hjs : ∀ j ∈ js, ∀ longer limit instant,
      j.2.call = .incrementSliding key longer limit instant → window ≤ longer ∧ instant = j.1)
    (h : Outlasts window now (s.find? key)) : Outlasts window later (s'.find? key) := by
  induction hserves with
  | nil => exact h
  | answered _ ih =>
    rw [List.forall_mem_cons] at hjs
    exact ih (hd.answer _ _) hjs.2 (outlasts_answer hd hjs.1 h)
  | refused _ _ ih =>
    rw [List.forall_mem_cons] at hjs
    exact ih hd hjs.2 h
  | swept _ ih => exact ih (hd.sweep _) hjs (h.fades (fades_sweep hd _ key))
  | waited hle _ ih => exact ih hd hjs (h.later hle)

end Store

/-! ## Histories -/

/-- **Rules with no longer windows:** what a log is kept for under the second rules is no
longer than under the first. -/
def RuleSet.NoLonger (before after : RuleSet) : Prop :=
  ∀ old ∈ before.rules, old.algorithm = .slidingWindow → ∀ new ∈ after.rules,
    new.algorithm = .slidingWindow → new.id = old.id → new.dimension = old.dimension →
      new.window ≤ old.window

instance (before after : RuleSet) : Decidable (before.NoLonger after) :=
  inferInstanceAs (Decidable (∀ old ∈ before.rules, old.algorithm = .slidingWindow →
    ∀ new ∈ after.rules, new.algorithm = .slidingWindow → new.id = old.id →
      new.dimension = old.dimension → new.window ≤ old.window))

theorem RuleSet.Sound.noLonger {set : RuleSet} (h : set.Sound) : set.NoLonger set := by
  intro old hold _ new hnew _ hid _
  rw [h.eq_of_id hnew hold hid]

/-- **Logs that outlast some rules** of a limiter: those that are there under the keys of
their sliding windows. -/
def Limiter.Outlast (l : Limiter) (set : RuleSet) (now : Nat) (s : Store) : Prop :=
  ∀ rule ∈ set.rules, rule.algorithm = .slidingWindow → ∀ value,
    Outlasts rule.window now (s.find? (rule.logKey l.settings.keySpace value))

namespace Service

/-- **Whether a command revives a log.** -/
def revives (s : Service) (command : Command) : Bool :=
  (s.limiter.conversation s.now command).any fun m =>
    (m.moments (Store.reply s.now) s.backend.store).any fun moment =>
      moment.1.revives s.now moment.2

/-- **Whether a log is ever revived** in a history. -/
def everRevives (s : Service) : List Command → Bool
  | [] => false
  | command :: rest => s.revives command || (s.handleAmid .none command).2.everRevives rest

theorem exists_of_everRevives {s : Service} {commands : List Command}
    (h : s.everRevives commands = true) :
    ∃ first command second, commands = first ++ command :: second ∧
      (s.after .none first).revives command = true := by
  induction commands generalizing s with
  | nil => cases h
  | cons command rest ih =>
    rw [everRevives, Bool.or_eq_true] at h
    rcases h with h | h
    · exact ⟨[], command, rest, rfl, h⟩
    · obtain ⟨first, c, second, rfl, hc⟩ := ih h
      exact ⟨command :: first, c, second, rfl, hc⟩

theorem everRevives_append {s : Service} {first second : List Command}
    (h : (s.after .none first).everRevives second = true) :
    s.everRevives (first ++ second) = true := by
  induction first generalizing s with
  | nil => exact h
  | cons command rest ih =>
    rw [List.cons_append, everRevives, Bool.or_eq_true]
    exact .inr (ih h)

variable {s : Service} {command : Command}

/-- **What a command that revives a log meets:** an attempt of its conversation, under a
key that nothing before it was about. -/
theorem exists_moment_of_revives (h : s.backend.outage = none) (hs : s.limiter.rules.Sound)
    (hd : s.backend.store.Distinct) (hr : s.revives command = true) :
    ∃ m, s.limiter.conversation s.now command = some m ∧
      ∃ moment ∈ m.moments (Store.reply s.now) s.backend.store,
        moment.1.revives s.now moment.2 = true ∧ s.limiter.Asks s.now moment.2 ∧
          Fades s.now (s.backend.store.find? moment.2.key) (moment.1.find? moment.2.key) := by
  rw [revives, Option.any_eq_true] at hr
  obtain ⟨m, hm, hr⟩ := hr
  obtain ⟨moment, hmoment, hrevives⟩ := List.any_eq_true.1 hr
  have hfirst := happening_pairwise_key_ne (d := .none) hs command
  rw [exchanges_of_no_outage h hm] at hfirst
  obtain ⟨x, hx, hcall⟩ := Interaction.exists_exchange_of_moment hmoment
  rw [← exchanges_of_no_outage h hm] at hx
  have hasks := happening_asks hs command x hx
  rw [hcall] at hasks
  exact ⟨m, hm, moment, hmoment, hrevives, hasks,
    Interaction.fades_of_moment hd hmoment (Store.isIncrement_of_revives hrevives) hfirst⟩

/-- Where the logs outlast the rules in force, no command revives one. -/
theorem revives_eq_false (h : s.backend.outage = none) (hs : s.limiter.rules.Sound)
    (hd : s.backend.store.Distinct) (hnow : s.now < Word.max)
    (ho : s.limiter.Outlast s.limiter.rules s.now s.backend.store) (command : Command) :
    s.revives command = false := by
  rw [Bool.eq_false_iff]
  intro hr
  obtain ⟨m, -, ⟨store, call⟩, -, hrevives, hasks, hfades⟩ := exists_moment_of_revives h hs hd hr
  cases hasks with
  | @incrementSliding rule hrule ha value =>
    rw [Rule.forValue_sliding ha] at hrevives hfades
    have houtlasts := (ho rule hrule ha value).fades hfades
    have hnot := Store.revives_eq_false_of_outlasts hnow houtlasts rule.limit
    exact Bool.false_ne_true (hnot.symm.trans hrevives)
  | incrementFixed | read | reset | resetOverride | setMarker | hasMarker => cases hrevives

/-- **Logs go on outlasting rules** that have no longer windows than those in force. -/
theorem outlast_handleAmid {set : RuleSet} (hs : s.limiter.rules.Sound)
    (hd : s.backend.store.Distinct)
    (hforward : s.backend.clock.now ≤ (s.backend.clock.after command).now)
    (hshorter : s.limiter.rules.NoLonger set)
    (ho : s.limiter.Outlast set s.now s.backend.store) :
    (s.handleAmid .none command).2.limiter.Outlast set (s.handleAmid .none command).2.now
      (s.handleAmid .none command).2.backend.store := by
  intro rule hr ha value
  have hsettings : (s.handleAmid .none command).2.limiter.settings = s.limiter.settings := by
    rw [limiter_handleAmid]
    cases command.rules? with
    | none => rfl
    | some set => rfl
  rw [hsettings]
  refine (serves_happening Disturbance.onlyOutages_none hforward).outlasts hd ?_
    (ho rule hr ha value)
  intro j hj longer limit instant hcall
  obtain ⟨h, hh, x, hx, rfl⟩ := Happening.mem_journal.1 hj
  rw [List.mem_singleton] at hh
  subst hh
  have hasks := happening_asks hs command x hx
  dsimp only at hcall
  rw [hcall] at hasks
  -- the attempt is one of a rule in force with the same id and dimension
  have hkey : (Call.incrementSliding (rule.logKey s.limiter.settings.keySpace value) longer limit
      instant).key = (CounterKey.mk rule.id rule.dimension value none).render
        s.limiter.settings.keySpace := rfl
  rcases hasks.of_key hkey with ⟨asked, hasked, hfor, ⟨-, hcall⟩ | ⟨hasliding, hcall⟩⟩ | hcall | hcall
  · cases hcall
  · cases hcall
    exact ⟨hshorter asked hasked hasliding rule hr ha (congrArg CounterKey.ruleId hfor).symm
      (congrArg CounterKey.dimension hfor).symm, rfl⟩
  · cases hcall
  · cases hcall

/-- **No log is revived** as long as no reload puts a longer window in force than there
was under the same id before. -/
theorem everRevives_eq_false {commands : List Command} (h : s.backend.outage = none)
    (houtage : ∀ command ∈ commands, command.setsOutage = false)
    (hclock : s.backend.clock.Steady commands) (hs : s.limiter.rules.Sound)
    (hd : s.backend.store.Distinct)
    (hshorter : (s.limiter.rules :: commands.filterMap Command.rules?).Pairwise RuleSet.NoLonger)
    (ho : ∀ set ∈ s.limiter.rules :: commands.filterMap Command.rules?,
      s.limiter.Outlast set s.now s.backend.store) : s.everRevives commands = false := by
  induction commands generalizing s with
  | nil => rfl
  | cons command rest ih =>
    rw [List.forall_mem_cons] at houtage
    obtain ⟨hnow, hforward, hrest⟩ := hclock
    rw [← clock_handleAmid Disturbance.onlyOutages_none] at hrest
    -- the rules to come after the command are among those to come before it
    have hsublist : ((s.handleAmid .none command).2.limiter.rules ::
        rest.filterMap Command.rules?).Sublist
          (s.limiter.rules :: (command :: rest).filterMap Command.rules?) := by
      rw [limiter_handleAmid, List.filterMap_cons]
      cases command.rules? with
      | none => exact .refl _
      | some set => exact List.sublist_cons_self _ _
    have hserves := serves_happening Disturbance.onlyOutages_none hforward
    rw [everRevives, revives_eq_false h hs hd hnow (ho _ List.mem_cons_self) command, Bool.false_or]
    refine ih (outage_handleAmid h houtage.1) houtage.2 hrest (sound_handleAmid hs command)
      (hserves.distinct hd) (hshorter.sublist hsublist) ?_
    intro set hset
    have hmem := hsublist.subset hset
    refine outlast_handleAmid hs hd hforward ?_ (ho set hmem)
    rcases List.mem_cons.1 hmem with rfl | hmem
    · exact hs.noLonger
    · exact (List.pairwise_cons.1 hshorter).1 set hmem

end Service

end Admission
