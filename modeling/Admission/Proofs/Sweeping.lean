/-
What a sweep can be noticed by.

A sweep takes away entries whose time is over. Every operation but one treats such an
entry as absent, so to all of them a swept store is as good as the unswept one
(`Store.Swept`). The exception is an attempt on a sliding window, which may revive a log
whose time is over (`Store.revives`). Without one, sweeps cannot be noticed
(`Swept.answer`, and from there up to whole histories); with one, a sweep before the
check is (`sweeping_unnoticed_iff`).
-/
import Admission.Proofs.Revival

set_option autoImplicit false

namespace Admission

/-! ## Attempts on logs whose time is over -/

/-- An attempt on an empty log. -/
theorem SlidingLog.attempt_start {now window limit : Nat} (hlimit : 0 < limit) :
    (start window).attempt now window limit =
      (⟨1, false, resetAfter ⟨[now], Word.clamp window, Word.add now (Word.clamp window)⟩ now⟩,
        ⟨[now], Word.clamp window, Word.add now (Word.clamp window)⟩) :=
  if_neg (not_le_of_gt hlimit)

/-- An attempt that finds nothing left inside its window is as one on an empty log. -/
theorem SlidingLog.attempt_of_left {l : SlidingLog} {now window limit : Nat} (hlimit : 0 < limit)
    (h : ∀ instant ∈ l.instants, hasLeft (Word.clamp window) now instant = true) :
    l.attempt now window limit = (start window).attempt now window limit := by
  have htrim : l.instants.dropWhile (hasLeft (Word.clamp window) now) = [] :=
    List.dropWhile_eq_nil_iff.2 h
  rw [attempt_start hlimit, attempt, trim]
  dsimp only
  rw [htrim]
  exact if_neg (not_le_of_gt hlimit)

/-- An attempt that finds something inside its window is answered something else. -/
theorem SlidingLog.attempt_ne_of_not_left {l : SlidingLog} {now window limit instant : Nat}
    (hlimit : 0 < limit) (hinstant : instant ∈ l.instants)
    (h : hasLeft (Word.clamp window) now instant = false) :
    (l.attempt now window limit).1 ≠ ((start window).attempt now window limit).1 := by
  have hpos : 0 < (l.instants.dropWhile (hasLeft (Word.clamp window) now)).length := by
    rw [List.length_pos_iff, Ne, List.dropWhile_eq_nil_iff]
    intro hall
    rw [hall instant hinstant] at h
    cases h
  -- the attempt is refused, or its count is two at least
  rw [attempt_start hlimit, attempt, trim]
  dsimp only
  split
  · exact fun heq => Bool.false_ne_true (congrArg SlidingCount.exceeded heq).symm
  · intro heq
    have hcount := congrArg SlidingCount.count heq
    dsimp only at hcount
    omega

/-- Whether a call, if it is an attempt, is one on a window that admits anything. -/
def Call.HasRoom : Call → Prop
  | incrementSliding _ _ limit _ => 0 < limit
  | _ => True

namespace Store

/-! ## Swept stores -/

/-- **A store as another one after some sweeps:** it lacks nothing but what is over. -/
structure Swept (now : Nat) (s t : Store) : Prop where
  distinct : s.Distinct
  distinct_swept : t.Distinct
  writes : t.writes = s.writes
  fades : ∀ key, Fades now (s.find? key) (t.find? key)

namespace Swept

variable {now : Nat} {s t : Store}

theorem refl (hd : s.Distinct) (now : Nat) : Swept now s s := ⟨hd, hd, rfl, fun _ => .refl _ _⟩

theorem later {mid : Nat} (h : Swept now s t) (hle : now ≤ mid) : Swept mid s t :=
  ⟨h.distinct, h.distinct_swept, h.writes, fun key => (h.fades key).later hle⟩

/-- One more sweep. -/
theorem sweep (h : Swept now s t) : Swept now s (t.sweep now) :=
  ⟨h.distinct, h.distinct_swept.sweep now, h.writes,
    fun key => (h.fades key).trans (fades_sweep h.distinct_swept now key)⟩

theorem live?_eq (h : Swept now s t) (key : String) : t.live? now key = s.live? now key :=
  live?_of_fades (h.fades key)

/-- A sweep makes equals of them. -/
theorem sweep_both (h : Swept now s t) : Swept now (s.sweep now) (t.sweep now) :=
  ⟨h.distinct.sweep now, h.distinct_swept.sweep now, h.writes, fun key => by
    rw [find?_sweep h.distinct, find?_sweep h.distinct_swept, h.live?_eq]
    exact .refl _ _⟩

theorem countWrite (h : Swept now s t) : Swept now (s.countWrite now) (t.countWrite now) := by
  have hcounted : Swept now { s with writes := s.writes + 1 } { t with writes := t.writes + 1 } :=
    ⟨h.distinct, h.distinct_swept, congrArg (· + 1) h.writes, h.fades⟩
  -- both have counted as many writes, so both sweep now or neither does
  unfold Store.countWrite
  dsimp only
  rw [h.writes] at hcounted ⊢
  split
  · exact hcounted.sweep_both
  · exact hcounted

theorem put (h : Swept now s t) (key : String) (entry : Entry) :
    Swept now (s.put key entry) (t.put key entry) :=
  ⟨h.distinct.put key entry, h.distinct_swept.put key entry, h.writes, fun k => by
    rw [find?_put, find?_put]
    split
    · exact .refl _ _
    · exact h.fades k⟩

theorem erase (h : Swept now s t) (key : String) : Swept now (s.erase key) (t.erase key) :=
  ⟨h.distinct.erase key, h.distinct_swept.erase key, h.writes, fun k => by
    rw [find?_erase, find?_erase]
    split
    · exact .refl _ _
    · exact h.fades k⟩

theorem liveFixed_eq (h : Swept now s t) (key : String) (window : Nat) :
    t.liveFixed now key window = s.liveFixed now key window := by
  rcases h.fades key with hcell | ⟨hnone, hfaded⟩
  · rw [liveFixed, liveFixed, hcell]
  · rw [liveFixed_of_faded hfaded, liveFixed_of_faded (hnone ▸ Faded.none now)]

/-- An attempt that revives nothing goes the same way. -/
theorem attempt_eq (h : Swept now s t) {key : String} {window limit instant : Nat}
    (hlimit : 0 < limit) (hr : s.revives now (.incrementSliding key window limit instant) = false) :
    (t.slidingLog key window).attempt instant window limit =
      (s.slidingLog key window).attempt instant window limit := by
  rcases h.fades key with hcell | ⟨hnone, hfaded⟩
  · rw [slidingLog, slidingLog, hcell]
  · -- the log was swept away; had it kept an instant in the window, this would be a revival
    rw [slidingLog_of_none hnone]
    unfold slidingLog
    split
    · rename_i l hl
      refine (SlidingLog.attempt_of_left hlimit ?_).symm
      intro entry hentry
      by_contra hleft
      have hrevives : s.revives now (.incrementSliding key window limit instant) = true :=
        revives_incrementSliding_iff.2
          ⟨l, hl, hfaded _ hl, entry, hentry, Bool.eq_false_iff.2 hleft⟩
      exact Bool.false_ne_true (hr.symm.trans hrevives)
    · rfl

/-- **Sweeps are not noticed by a call** that has room and revives nothing: it is
answered the same and leaves the same but for what is over. -/
theorem answer (h : Swept now s t) {call : Call} (hroom : call.HasRoom)
    (hr : s.revives now call = false) :
    (t.answer now call).1 = (s.answer now call).1 ∧
      Swept now (s.answer now call).2 (t.answer now call).2 := by
  cases call with
  | incrementFixed key window =>
    rw [Store.answer, Store.answer, incrementFixed, incrementFixed, h.liveFixed_eq]
    exact ⟨rfl, (h.put key _).countWrite⟩
  | incrementSliding key window limit instant =>
    rw [Store.answer, Store.answer, incrementSliding, incrementSliding, h.attempt_eq hroom hr]
    exact ⟨rfl, (h.put key _).countWrite⟩
  | read key =>
    rw [Store.answer, Store.answer, read, read, h.live?_eq]
    exact ⟨rfl, h⟩
  | reset key =>
    rw [Store.answer, Store.answer, reset, reset, h.live?_eq]
    exact ⟨rfl, h.erase key⟩
  | setMarker key ttl => exact ⟨rfl, (h.put key _).countWrite⟩
  | hasMarker key =>
    rw [Store.answer, Store.answer, hasMarker, hasMarker, h.live?_eq]
    exact ⟨rfl, h⟩

end Swept

end Store

/-! ## Sweeps during a conversation -/

/-- **Sweeps at any time:** before a call the store is swept or nothing happens. -/
def Disturbance.OnlySweeps (d : Disturbance) : Prop :=
  ∀ i b, d i b = b ∨ d i b = { b with store := b.store.sweep b.clock.now }

theorem Disturbance.onlySweeps_none : none.OnlySweeps := fun _ _ => .inl rfl

/-- A conversation that makes no attempt without room and none that revives a log. -/
def Interaction.Plain {α : Type} (now : Nat) (m : Interaction α) (s : Store) : Prop :=
  ∀ moment ∈ m.moments (Store.reply now) s,
    moment.2.HasRoom ∧ moment.1.revives now moment.2 = false

namespace Store.Swept

variable {α : Type} {d : Disturbance} {now : Nat} {s : Store} {b : Backend}

/-- One call, with a sweep before it or without. -/
theorem answerAmid (h : Swept b.clock.now s b.store) (hd : d.OnlySweeps) (hb : b.outage = none)
    {call : Call} (hroom : call.HasRoom) (hr : s.revives b.clock.now call = false) :
    (b.answerAmid d call).1 = (Store.reply b.clock.now s call).1 ∧
      Swept b.clock.now (Store.reply b.clock.now s call).2 (b.answerAmid d call).2.store ∧
      (b.answerAmid d call).2.clock = b.clock ∧ (b.answerAmid d call).2.outage = none := by
  obtain ⟨store, hstore, hswept⟩ : ∃ store, d b.calls.length b = { b with store := store } ∧
      Swept b.clock.now s store := by
    rcases hd b.calls.length b with hnone | hsweep
    · exact ⟨b.store, hnone, h⟩
    · exact ⟨_, hsweep, h.sweep⟩
  obtain ⟨hanswer, hlater⟩ := hswept.answer hroom hr
  have hquiet : ({ b with store := store } : Backend).outage = none := hb
  rw [Backend.answerAmid, hstore, Backend.answer_of_no_outage hquiet]
  exact ⟨congrArg Reply.answered hanswer, hlater, rfl, hb⟩

/-- **Sweeps are not noticed in a plain conversation.** -/
theorem conversation (hd : d.OnlySweeps) (hb : b.outage = none) {m : Interaction α}
    (h : Swept b.clock.now s b.store) (hm : m.Plain b.clock.now s) :
    m.exchanges (Backend.answerAmid d) b = m.exchanges (Store.reply b.clock.now) s ∧
      (m.run (Backend.answerAmid d) b).1 = (m.run (Store.reply b.clock.now) s).1 ∧
      Swept b.clock.now (m.run (Store.reply b.clock.now) s).2
        (m.run (Backend.answerAmid d) b).2.store ∧
      (m.run (Backend.answerAmid d) b).2.clock = b.clock ∧
      (m.run (Backend.answerAmid d) b).2.outage = none := by
  induction m generalizing s b with
  | done value => exact ⟨rfl, rfl, h, rfl, hb⟩
  | ask call next ih =>
    obtain ⟨hroom, hr⟩ : call.HasRoom ∧ s.revives b.clock.now call = false :=
      hm (s, call) List.mem_cons_self
    obtain ⟨hreply, hswept, hclock, houtage⟩ := h.answerAmid hd hb hroom hr
    have hswept : Swept (b.answerAmid d call).2.clock.now (Store.reply b.clock.now s call).2
        (b.answerAmid d call).2.store := by
      rw [hclock]
      exact hswept
    have hrest : (next (Store.reply b.clock.now s call).1).Plain
        (b.answerAmid d call).2.clock.now (Store.reply b.clock.now s call).2 := by
      rw [hclock]
      exact fun moment hmoment => hm moment (List.mem_cons_of_mem _ hmoment)
    obtain ⟨hexchanges, hvalue, hafter, hclock', houtage'⟩ := ih _ houtage hswept hrest
    rw [hclock] at hexchanges hvalue hafter hclock'
    rw [Interaction.exchanges_ask, Interaction.exchanges_ask, Interaction.run_ask,
      Interaction.run_ask, hreply]
    exact ⟨congrArg _ hexchanges, hvalue, hafter, hclock', houtage'⟩

end Store.Swept

/-! ## A sweep that is noticed -/

/-- **A revival gives a sweep away.** If a conversation reaches an attempt that revives a
log, without having touched the log before, it does not have the same exchanges where
the log has been swept away. -/
theorem Interaction.exchanges_ne_of_revives {α : Type} {now : Nat} {m : Interaction α}
    {s t : Store} (ht : t.Distinct) {moment : Store × Call}
    (hmoment : moment ∈ m.moments (Store.reply now) s) (hroom : moment.2.HasRoom)
    (hrevives : moment.1.revives now moment.2 = true) (hswept : t.find? moment.2.key = none)
    (hfirst : (m.exchanges (Store.reply now) s).Pairwise
      fun x y => y.call.isIncrement = true → x.call.key ≠ y.call.key) :
    m.exchanges (Store.reply now) t ≠ m.exchanges (Store.reply now) s := by
  induction m generalizing s t with
  | done value => cases hmoment
  | ask call next ih =>
    intro hsame
    rw [exchanges_ask, exchanges_ask, List.cons.injEq, Exchange.mk.injEq] at hsame
    obtain ⟨⟨-, hreply⟩, hrest⟩ := hsame
    have hreply : (Store.reply now t call).1 = (Store.reply now s call).1 := eq_of_heq hreply
    rw [exchanges_ask, List.pairwise_cons] at hfirst
    rcases List.mem_cons.1 hmoment with rfl | hmoment
    · -- the attempt itself: its answer tells the two stores apart
      cases call with
      | incrementSliding key window limit instant =>
        obtain ⟨l, hl, -, entry, hentry, hleft⟩ := Store.revives_incrementSliding_iff.1 hrevives
        have hanswer := Reply.answered.inj hreply
        change t.find? key = none at hswept
        change (t.incrementSliding now key window limit instant).1 =
          (s.incrementSliding now key window limit instant).1 at hanswer
        rw [Store.incrementSliding, Store.incrementSliding, Store.slidingLog_of_sliding hl,
          Store.slidingLog_of_none hswept] at hanswer
        exact SlidingLog.attempt_ne_of_not_left hroom hentry hleft hanswer.symm
      | incrementFixed | read | reset | setMarker | hasMarker => cases hrevives
    · -- the attempt is made later, and this call is about another key
      have hcounts : moment.2.isIncrement = true := Store.isIncrement_of_revives hrevives
      obtain ⟨x, hx, hcall⟩ := exists_exchange_of_moment hmoment
      have hne : call.key ≠ moment.2.key := by
        rw [← hcall] at hcounts ⊢
        exact hfirst.1 x hx hcounts
      have hfades := Store.fades_answer_of_ne ht now hne
      rw [hswept] at hfades
      have hstill : (Store.reply now t call).2.find? moment.2.key = none := by
        rcases hfades with hstill | ⟨hstill, -⟩
        · exact hstill
        · exact hstill
      rw [hreply] at hrest
      exact ih _ (ht.answer now call) hmoment hstill hfirst.2 hrest

/-! ## Services -/

/-- A limiter asks for no attempt without room. -/
theorem Limiter.Asks.hasRoom {l : Limiter} {now : Nat} {call : Call} (h : l.Asks now call)
    (hs : l.rules.Sound) : call.HasRoom := by
  cases h with
  | incrementSliding hr ha value => exact hs.limit_pos _ hr
  | incrementFixed | read | reset | resetOverride | setMarker | hasMarker => exact trivial

/-- A report without the number of entries that a purge found. -/
def Report.uncounted : Report → Report
  | purged _ => purged 0
  | report => report

/-- **What is answered at one command:** the replies of the store and the report, save
how much a purge has taken away. -/
def Happening.answers (h : Happening) : List Exchange × Report := (h.exchanges, h.report.uncounted)

namespace Service

variable {d : Disturbance} {s t : Service} {command : Command}

/-- A command that revives no log is plain. -/
theorem plain_of_not_revives (h : s.backend.outage = none) (hs : s.limiter.rules.Sound)
    {m : Interaction Report} (hm : s.limiter.conversation s.now command = some m)
    (hr : s.revives command = false) : m.Plain s.now s.backend.store := by
  rw [revives, hm, Option.any_some, List.any_eq_false] at hr
  intro moment hmoment
  refine ⟨?_, Bool.eq_false_iff.2 (hr moment hmoment)⟩
  obtain ⟨x, hx, hcall⟩ := Interaction.exists_exchange_of_moment hmoment
  rw [← exchanges_of_no_outage h hm] at hx
  rw [← hcall]
  exact (happening_asks hs command x hx).hasRoom hs

/-- **A service as another one after some sweeps.** -/
structure Swept (s t : Service) : Prop where
  limiter : t.limiter = s.limiter
  clock : t.backend.clock = s.backend.clock
  outage : s.backend.outage = none
  outage_swept : t.backend.outage = none
  store : Store.Swept s.now s.backend.store t.backend.store

namespace Swept

/-- Sweeps are not noticed at a command that is a conversation and revives no log. -/
theorem happening_of_conversation (h : s.Swept t) (hd : d.OnlySweeps) (hs : s.limiter.rules.Sound)
    (hr : s.revives command = false) {m : Interaction Report}
    (hm : s.limiter.conversation s.now command = some m) :
    (t.happening d command).answers = (s.happening .none command).answers ∧
      Swept (s.handleAmid .none command).2 (t.handleAmid d command).2 := by
  have hnow : t.now = s.now := congrArg Clock.now h.clock
  have hm' : t.limiter.conversation t.now command = some m := by
    rw [h.limiter, hnow]
    exact hm
  have hplain := plain_of_not_revives h.outage hs hm hr
  have hstore : Store.Swept t.backend.clock.now s.backend.store t.backend.store := by
    rw [h.clock]
    exact h.store
  obtain ⟨hexchanges, hvalue, hafter, hclock, hout⟩ :=
    hstore.conversation hd h.outage_swept (by rw [h.clock]; exact hplain)
  obtain ⟨hvalue', hstore', hclock', hout'⟩ := Backend.run_of_no_outage h.outage m
  rw [h.clock] at hexchanges hvalue hafter hclock
  refine ⟨?_, ?_⟩
  · rw [Happening.answers, Happening.answers, exchanges_of_conversation hm', hexchanges,
      exchanges_of_no_outage h.outage hm, Service.happening, Service.happening,
      handleAmid_of_conversation hm', handleAmid_of_conversation hm]
    exact congrArg (fun report => (_, report.uncounted)) (hvalue.trans hvalue'.symm)
  · rw [handleAmid_of_conversation hm', handleAmid_of_conversation hm]
    refine ⟨h.limiter, hclock.trans hclock'.symm, hout', hout, ?_⟩
    change Store.Swept (s.backend.run m).2.clock.now (s.backend.run m).2.store _
    rw [hclock', hstore']
    exact hafter

/-- Nor at any other command, save by the number of entries that a purge finds. -/
theorem happening_of_no_conversation (h : s.Swept t) (houtage : command.setsOutage = false)
    (hforward : s.backend.clock.now ≤ (s.backend.clock.after command).now)
    (hm : s.limiter.conversation s.now command = none) :
    (t.happening d command).answers = (s.happening .none command).answers ∧
      Swept (s.handleAmid .none command).2 (t.handleAmid d command).2 := by
  have hnow : t.now = s.now := congrArg Clock.now h.clock
  have hm' : t.limiter.conversation t.now command = none := by
    rw [h.limiter, hnow]
    exact hm
  rw [Happening.answers, Happening.answers, exchanges_of_no_conversation hm',
    exchanges_of_no_conversation hm, Service.happening, Service.happening,
    handleAmid_of_no_conversation hm', handleAmid_of_no_conversation hm]
  dsimp only
  -- the two services are taken apart, since they share all but the store
  obtain ⟨limiter, store, clock, outage, calls⟩ := s
  obtain ⟨limiter', store', clock', outage', calls'⟩ := t
  obtain ⟨hlimiter, hclock, hout, hout', hstore⟩ := h
  dsimp only at hlimiter hclock
  subst hlimiter
  subst hclock
  cases command with
  | check | status | reset | resetFor | addOverride | removeOverride => cases hm
  | reload rules defaults =>
    rw [handle, handle]
    split
    · exact ⟨rfl, rfl, rfl, hout, hout', hstore⟩
    · exact ⟨rfl, rfl, rfl, hout, hout', hstore⟩
  | advance | setClock => exact ⟨rfl, rfl, rfl, hout, hout', hstore.later hforward⟩
  | purge => exact ⟨rfl, rfl, rfl, hout, hout', hstore.sweep_both⟩
  | setOutage => cases houtage

/-- **Sweeps are not noticed at a command** that revives no log. -/
theorem happening (h : s.Swept t) (hd : d.OnlySweeps) (hs : s.limiter.rules.Sound)
    (hr : s.revives command = false) (houtage : command.setsOutage = false)
    (hforward : s.backend.clock.now ≤ (s.backend.clock.after command).now) :
    (t.happening d command).answers = (s.happening .none command).answers ∧
      Swept (s.handleAmid .none command).2 (t.handleAmid d command).2 := by
  cases hm : s.limiter.conversation s.now command with
  | some m => exact h.happening_of_conversation hd hs hr hm
  | none => exact h.happening_of_no_conversation houtage hforward hm

/-- **Sweeps are not noticed in a history** in which no log is revived. -/
theorem chronicle (hd : d.OnlySweeps) {commands : List Command} (h : s.Swept t)
    (hs : s.limiter.rules.Sound) (hr : s.everRevives commands = false)
    (houtage : ∀ command ∈ commands, command.setsOutage = false)
    (hclock : s.backend.clock.Steady commands) :
    (t.chronicle d commands).map Happening.answers =
      (s.chronicle .none commands).map Happening.answers := by
  induction commands generalizing s t with
  | nil => rfl
  | cons command rest ih =>
    rw [everRevives, Bool.or_eq_false_iff] at hr
    rw [List.forall_mem_cons] at houtage
    obtain ⟨-, hforward, hrest⟩ := hclock
    rw [← clock_handleAmid Disturbance.onlyOutages_none] at hrest
    obtain ⟨hanswers, hafter⟩ := h.happening hd hs hr.1 houtage.1 hforward
    rw [Service.chronicle, Service.chronicle, List.map_cons, List.map_cons, hanswers,
      ih hafter (sound_handleAmid hs command) hr.2 houtage.2 hrest]

end Swept

/-- What holds of a service with a sound limiter at every place of a history without
outages. -/
theorem quiet_after (h : s.backend.outage = none) (hs : s.limiter.rules.Sound)
    (hd : s.backend.store.Distinct) {first second : List Command}
    (houtage : ∀ command ∈ first ++ second, command.setsOutage = false)
    (hclock : s.backend.clock.Steady (first ++ second)) :
    (s.after .none first).backend.outage = none ∧ (s.after .none first).limiter.rules.Sound ∧
      (s.after .none first).backend.store.Distinct ∧
      (s.after .none first).backend.clock.Steady second := by
  obtain ⟨hfirst, hsecond⟩ := steady_append Disturbance.onlyOutages_none hclock
  refine ⟨?_, sound_after hs first, ?_, hsecond⟩
  · exact outage_after h fun command hc => houtage command (List.mem_append_left _ hc)
  · exact (chronicle_serves Disturbance.onlyOutages_none hfirst).distinct hd

theorem after_append_purge (s : Service) (first : List Command) :
    s.after .none (first ++ [.purge]) = ((s.after .none first).handle .purge).2 := by
  rw [after_append]
  rfl

/-- The same service with its store swept. -/
theorem swept_purge (h : s.backend.outage = none) (hd : s.backend.store.Distinct) :
    s.Swept (s.handle .purge).2 :=
  ⟨rfl, rfl, h, h, (Store.Swept.refl hd s.now).sweep⟩

/-- **A sweep right before a command that revives a log is noticed.** -/
theorem answers_ne_of_revives (h : s.backend.outage = none) (hs : s.limiter.rules.Sound)
    (hd : s.backend.store.Distinct) (hr : s.revives command = true) :
    ((s.handle .purge).2.happening .none command).answers ≠
      (s.happening .none command).answers := by
  obtain ⟨m, hm, moment, hmoment, hrevives, hasks, hfades⟩ := exists_moment_of_revives h hs hd hr
  intro hsame
  have hexchanges := congrArg Prod.fst hsame
  have hm' : (s.handle .purge).2.limiter.conversation (s.handle .purge).2.now command = some m := hm
  change ((s.handle .purge).2.happening .none command).exchanges =
    (s.happening .none command).exchanges at hexchanges
  rw [exchanges_of_no_outage h hm, exchanges_of_no_outage (s := (s.handle .purge).2) h hm']
    at hexchanges
  have hfirst := happening_pairwise_key_ne (d := .none) hs command
  rw [exchanges_of_no_outage h hm] at hfirst
  refine Interaction.exchanges_ne_of_revives (hd.sweep s.now) hmoment (hasks.hasRoom hs) hrevives
    ?_ hfirst hexchanges
  -- the log was there before the command, and its time was over
  obtain ⟨e, he, hexpired⟩ := Store.exists_expired_of_revives hrevives
  have hfaded : Faded s.now (s.backend.store.find? moment.2.key) := by
    rcases hfades with hcell | ⟨-, hfaded⟩
    · rw [← hcell, he]
      exact faded_some hexpired
    · exact hfaded
  rw [Store.find?_sweep hd, Store.live?_of_faded hfaded]

end Service

/-! ## When sweeps are noticed -/

/-- **Sweeps go unnoticed if and only if no log is revived.** A limiter with rules that
could be made carries out any commands, reloads among them, over a clock that never goes
backward and a store that does not fail.

Sweeping the store at any place between two commands changes none of the later answers,
neither the store's replies nor the reports, but for the number of entries that a purge
finds, if and only if no attempt of the history meets a log whose time is over and that
has an instant inside the window of the attempt. In that case the store may also be
swept in between, before any of the calls, and nobody notices. And that is so whenever
no reload puts a longer sliding window in force than there was under its id before. -/
theorem sweeping_unnoticed_iff {rules : List Rule} {defaults : DefaultLimits} {set : RuleSet}
    (hbuild : RuleSet.build rules defaults = .ok set) (settings : LimiterSettings)
    (whitelist : Whitelist) {start : Nat} {commands : List Command}
    (houtage : ∀ command ∈ commands, command.setsOutage = false)
    (hclock : (Clock.mk start).Steady commands) :
    let s := Service.start ⟨settings, set, whitelist⟩ start
    let answers (d : Disturbance) (s : Service) (commands : List Command) :=
      (s.chronicle d commands).map Happening.answers
    ((∀ first second, commands = first ++ second →
        answers .none (s.after .none (first ++ [.purge])) second =
          answers .none (s.after .none first) second) ↔
      s.everRevives commands = false) ∧
    (s.everRevives commands = false →
      ∀ d : Disturbance, d.OnlySweeps → answers d s commands = answers .none s commands) ∧
    ((set :: commands.filterMap Command.rules?).Pairwise RuleSet.NoLonger →
      s.everRevives commands = false) := by
  have hs : set.Sound := RuleSet.sound_of_build hbuild
  intro s answers
  have hafter : ∀ first second, commands = first ++ second →
      (s.after .none first).backend.outage = none ∧
        (s.after .none first).limiter.rules.Sound ∧
        (s.after .none first).backend.store.Distinct ∧
        (s.after .none first).backend.clock.Steady second := by
    rintro first second rfl
    exact Service.quiet_after rfl hs Store.distinct_empty houtage hclock
  refine ⟨⟨?_, ?_⟩, ?_, ?_⟩
  · -- a sweep right before a revival shows in the answers to that command
    intro hsame
    rw [Bool.eq_false_iff]
    intro hrevives
    obtain ⟨first, command, second, rfl, hr⟩ := Service.exists_of_everRevives hrevives
    obtain ⟨hout, hsound, hdistinct, -⟩ := hafter first (command :: second) rfl
    have hhead := hsame first (command :: second) rfl
    rw [Service.after_append_purge] at hhead
    have hhead := (List.cons.inj hhead).1
    exact Service.answers_ne_of_revives hout hsound hdistinct hr hhead
  · intro hr first second hsplit
    obtain ⟨hout, hsound, hdistinct, hsteady⟩ := hafter first second hsplit
    have hnever : (s.after .none first).everRevives second = false := by
      rw [Bool.eq_false_iff]
      intro hrevives
      rw [hsplit, Service.everRevives_append hrevives] at hr
      cases hr
    rw [Service.after_append_purge]
    refine (Service.swept_purge hout hdistinct).chronicle Disturbance.onlySweeps_none hsound hnever
      ?_ hsteady
    rw [hsplit] at houtage
    exact fun command hc => houtage command (List.mem_append_right _ hc)
  · -- a service is its own swept twin at the start
    intro hr d hd
    obtain ⟨hout, hsound, hdistinct, hsteady⟩ := hafter [] commands rfl
    have hself : s.Swept s := ⟨rfl, rfl, hout, hout, Store.Swept.refl hdistinct s.now⟩
    exact hself.chronicle hd hsound hr houtage hsteady
  · intro hshorter
    have hstart : s.limiter.rules = set := rfl
    rw [← hstart] at hshorter
    exact Service.everRevives_eq_false rfl houtage hclock hs Store.distinct_empty hshorter
      fun _ _ rule _ _ _ => Outlasts.none rule.window start

/-! ## Histories -/

namespace SweepingSample

/-- One request in so many seconds from each address. -/
def rule (seconds : Nat) : Rule :=
  { Rule.basic "pace" .address 1 seconds with algorithm := .slidingWindow }

def settings : LimiterSettings := ⟨true, false, 50, "turnstile"⟩

def request : Request := .describe "GET" "/search" "10.0.0.1"

/-- A limiter with one rule. -/
def service (seconds : Nat) : Service :=
  Service.start ⟨settings, ⟨[rule seconds]⟩, .ofConfig .empty⟩ 10000

end SweepingSample

open SweepingSample in
/-- **A sweep that is noticed.** A request was let through 1.5 s ago by a rule with a
window of one second, which a reload then makes a minute. The next request is denied,
unless the store was swept before the reload. -/
theorem sweeping_noticed_after_longer_window :
    ((service 1).run [.check request, .advance 1500, .reload [rule 60] .empty,
        .check request]).1.map (·.deniesBy "pace") = [false, false, false, true] ∧
      ((service 1).run [.check request, .advance 1500, .purge, .reload [rule 60] .empty,
        .check request]).1.map (·.deniesBy "pace") = [false, false, false, false, false] := by
  decide +kernel

open SweepingSample in
/-- With the longer window first nothing is revived, so the sweep is not noticed. -/
theorem sweeping_unnoticed_after_shorter_window :
    let commands : List Command :=
      [.check request, .advance 60000, .reload [rule 1] .empty, .check request]
    ∀ d : Disturbance, d.OnlySweeps →
      ((service 60).chronicle d commands).map Happening.answers =
        ((service 60).chronicle .none commands).map Happening.answers := by
  intro commands
  have hbuild : RuleSet.build [rule 60] .empty = .ok ⟨[rule 60]⟩ := rfl
  have houtage : ∀ command ∈ commands, command.setsOutage = false := by decide
  have hclock : (Clock.mk 10000).Steady commands := by decide
  have h := sweeping_unnoticed_iff hbuild settings (.ofConfig .empty) houtage hclock
  exact h.2.1 (h.2.2 (by decide +kernel))

end Admission
