/-
Requests that share no counter do not notice each other.

Leaving some checks out of a history changes more than their own counters: there are
fewer writes, so the sweeps fall elsewhere, and under any key an entry whose time is over
may be gone in one history and not in the other. But no call can tell such cells apart
(`Alike`, `Store.AgreeOutside.answer_both`), as long as a log whose time is over holds
nothing that counts, which is what an orderly store ensures. So two stores that agree
outside the counters of the checks left out answer everything else the same
(`checks_unnoticed_apart`).
-/
import Admission.Proofs.Orderly
import Admission.Proofs.Sweeping

set_option autoImplicit false

namespace Admission

/-! ## Cells that are alike -/

/-- **Cells that cannot be told apart:** they are the same, or nothing alive is in
either. -/
def Alike (now : Nat) (a b : Option Entry) : Prop := a = b ∨ Faded now a ∧ Faded now b

namespace Alike

variable {now : Nat} {a b a' b' : Option Entry}

theorem refl (now : Nat) (a : Option Entry) : Alike now a a := .inl rfl

theorem later {mid : Nat} (h : Alike now a b) (hle : now ≤ mid) : Alike mid a b := by
  rcases h with h | ⟨ha, hb⟩
  · exact .inl h
  · exact .inr ⟨ha.later hle, hb.later hle⟩

/-- Either may fade. -/
theorem fades (h : Alike now a b) (ha : Fades now a a') (hb : Fades now b b') :
    Alike now a' b' := by
  rcases h with rfl | ⟨hfa, hfb⟩
  · rcases ha with rfl | ⟨rfl, hfa⟩
    · rcases hb with rfl | ⟨rfl, hfb⟩
      · exact .refl now _
      · exact .inr ⟨hfb, Faded.none now⟩
    · exact .inr ⟨Faded.none now, hb.faded hfa⟩
  · exact .inr ⟨ha.faded hfa, hb.faded hfb⟩

end Alike

namespace Store

variable {now : Nat} {s t : Store} {key : String}

theorem live?_eq_of_alike (h : Alike now (s.find? key) (t.find? key)) :
    s.live? now key = t.live? now key := by
  rcases h with h | ⟨hs, ht⟩
  · rw [live?, live?, h]
  · rw [live?_of_faded hs, live?_of_faded ht]

theorem liveFixed_eq_of_alike (h : Alike now (s.find? key) (t.find? key)) (window : Nat) :
    s.liveFixed now key window = t.liveFixed now key window := by
  rcases h with h | ⟨hs, ht⟩
  · rw [liveFixed, liveFixed, h]
  · rw [liveFixed_of_faded hs, liveFixed_of_faded ht]

/-- An attempt that finds nothing alive under the key of its rule begins a log. -/
theorem attempt_of_faded {window limit : Nat} {past : List Nat} (hnow : now < Word.max)
    (hlimit : 0 < limit) (hl : Logged window now past (s.find? key))
    (hf : Faded now (s.find? key)) :
    (s.slidingLog key window).attempt now window limit =
      (SlidingLog.start window).attempt now window limit := by
  obtain ⟨l, hcell, hkeeps⟩ := hl
  rcases hcell with ⟨hnone, -⟩ | hcell
  · rw [slidingLog_of_none hnone]
  · -- the log's time is over, so all that it holds has left the window
    have hgone := hkeeps.left_of_isExpired hnow (hf _ hcell)
    rw [slidingLog_of_sliding hcell]
    refine SlidingLog.attempt_of_left hlimit ?_
    intro instant hinstant
    exact (SlidingLog.hasLeft_iff hnow).2 (hgone _ (hkeeps.mem_of_mem_instants hinstant))

/-! ## Stores that agree outside some keys -/

/-- **Two orderly stores that agree outside some keys.** -/
structure AgreeOutside (l : Limiter) (hidden : String → Prop) (now : Nat) (s t : Store) :
    Prop where
  left : s.Orderly l now
  right : t.Orderly l now
  alike : ∀ key, ¬ hidden key → Alike now (s.find? key) (t.find? key)

namespace AgreeOutside

variable {l : Limiter} {hidden : String → Prop} {call : Call}

theorem refl (h : s.Orderly l now) (hidden : String → Prop) : AgreeOutside l hidden now s s :=
  ⟨h, h, fun _ _ => .refl now _⟩

theorem later {mid : Nat} (h : AgreeOutside l hidden now s t) (hle : now ≤ mid) :
    AgreeOutside l hidden mid s t :=
  ⟨h.left.later hle, h.right.later hle, fun key hkey => (h.alike key hkey).later hle⟩

/-- A call that one of them answers is not noticed outside its key. -/
theorem answer_left (h : AgreeOutside l hidden now s t) (hs : l.rules.Sound)
    (hnow : now < Word.max) (hasks : l.Asks now call) (hkey : hidden call.key) :
    AgreeOutside l hidden now (s.answer now call).2 t := by
  refine ⟨h.left.answer hs hnow hasks, h.right, ?_⟩
  intro key hvisible
  have hne : call.key ≠ key := by
    rintro rfl
    exact hvisible hkey
  exact (h.alike key hvisible).fades (fades_answer_of_ne h.left.distinct now hne) (.refl now _)

/-- What both put under a key is alike, whichever of them it makes sweep. -/
theorem alike_put (h : AgreeOutside l hidden now s t) (key : String) (entry : Entry) :
    Alike now (((s.put key entry).countWrite now).find? key)
      (((t.put key entry).countWrite now).find? key) :=
  (Alike.refl now (some entry)).fades (fades_countWrite_put h.left.distinct now key entry)
    (fades_countWrite_put h.right.distinct now key entry)

/-- Attempts of a rule go the same way in both. -/
theorem attempt_eq (h : AgreeOutside l hidden now s t) (hs : l.rules.Sound)
    (hnow : now < Word.max) {rule : Rule} (hr : rule ∈ l.rules.rules)
    (ha : rule.algorithm = .slidingWindow) (value : String) (seconds : Nat)
    (hkey : ¬ hidden (l.keyOf rule value seconds)) :
    (s.slidingLog (l.keyOf rule value seconds) rule.window).attempt now rule.window rule.limit =
      (t.slidingLog (l.keyOf rule value seconds) rule.window).attempt now rule.window
        rule.limit := by
  have hlimit := hs.limit_pos rule hr
  obtain ⟨past, hpast⟩ := (Rule.suits_sliding_iff ha).1 (h.left.suits rule hr value seconds)
  obtain ⟨past', hpast'⟩ := (Rule.suits_sliding_iff ha).1 (h.right.suits rule hr value seconds)
  -- attempts do not look at a log's time, so here order is needed and being alike not enough
  rcases h.alike _ hkey with hsame | ⟨hf, hf'⟩
  · rw [slidingLog, slidingLog, hsame]
  · rw [attempt_of_faded hnow hlimit hpast hf, attempt_of_faded hnow hlimit hpast' hf']

/-- **A call outside the hidden keys cannot tell the two apart:** both give the same
answer, and leave alike what is under its key. -/
theorem answer_key (h : AgreeOutside l hidden now s t) (hs : l.rules.Sound) (hnow : now < Word.max)
    (hasks : l.Asks now call) (hkey : ¬ hidden call.key) :
    (s.answer now call).1 = (t.answer now call).1 ∧
      Alike now ((s.answer now call).2.find? call.key) ((t.answer now call).2.find? call.key) := by
  have halike := h.alike _ hkey
  cases hasks with
  | incrementFixed hr ha value =>
    rw [Call.key] at halike
    rw [Store.answer, Store.answer, incrementFixed, incrementFixed, liveFixed_eq_of_alike halike]
    exact ⟨rfl, h.alike_put _ _⟩
  | incrementSliding hr ha value =>
    have hattempt := h.attempt_eq hs hnow hr ha value (now / 1000) hkey
    rw [Limiter.keyOf] at hattempt
    rw [Store.answer, Store.answer, incrementSliding, incrementSliding, hattempt]
    exact ⟨rfl, h.alike_put _ _⟩
  | setMarker dimension value ttl => exact ⟨rfl, h.alike_put _ _⟩
  | read key =>
    rw [Call.key] at halike
    rw [Store.answer, Store.answer, Store.read, Store.read, live?_eq_of_alike halike]
    exact ⟨rfl, halike⟩
  | hasMarker dimension value =>
    rw [Call.key] at halike
    rw [Store.answer, Store.answer, Store.hasMarker, Store.hasMarker, live?_eq_of_alike halike]
    exact ⟨rfl, halike⟩
  | reset | resetOverride =>
    rw [Call.key] at halike
    rw [Store.answer, Store.answer, Store.reset, Store.reset, live?_eq_of_alike halike, Call.key,
      find?_erase, find?_erase, if_pos rfl, if_pos rfl]
    exact ⟨rfl, .refl now none⟩

theorem answer_both (h : AgreeOutside l hidden now s t) (hs : l.rules.Sound) (hnow : now < Word.max)
    (hasks : l.Asks now call) (hkey : ¬ hidden call.key) :
    (s.answer now call).1 = (t.answer now call).1 ∧
      AgreeOutside l hidden now (s.answer now call).2 (t.answer now call).2 := by
  obtain ⟨hanswer, halike⟩ := h.answer_key hs hnow hasks hkey
  refine ⟨hanswer, h.left.answer hs hnow hasks, h.right.answer hs hnow hasks, ?_⟩
  intro key hvisible
  by_cases hsame : call.key = key
  · exact hsame ▸ halike
  · exact (h.alike key hvisible).fades (fades_answer_of_ne h.left.distinct now hsame)
      (fades_answer_of_ne h.right.distinct now hsame)

/-! ## Conversations -/

variable {α : Type}

/-- **A conversation that one of them holds** goes unnoticed if it only looks at what is
not hidden. -/
theorem converse_left (h : AgreeOutside l hidden now s t) (hs : l.rules.Sound)
    (hnow : now < Word.max) {m : Interaction α}
    (hm : ∀ x ∈ m.exchanges (Store.reply now) s,
      l.Asks now x.call ∧ (hidden x.call.key ∨ ∃ key, x.call = .hasMarker key)) :
    AgreeOutside l hidden now (m.run (Store.reply now) s).2 t := by
  induction m generalizing s with
  | done value => exact h
  | ask call next ih =>
    rw [Interaction.exchanges_ask, List.forall_mem_cons] at hm
    obtain ⟨⟨hasks, hcall⟩, hrest⟩ := hm
    rw [Interaction.run_ask]
    refine ih _ ?_ hrest
    rcases hcall with hkey | ⟨key, hcall⟩
    · exact h.answer_left hs hnow hasks hkey
    · dsimp only at hcall
      rw [hcall]
      exact h

/-- **A conversation that both hold** goes the same way if it keeps clear of what is
hidden. -/
theorem converse_both (h : AgreeOutside l hidden now s t) (hs : l.rules.Sound)
    (hnow : now < Word.max) {m : Interaction α}
    (hm : ∀ x ∈ m.exchanges (Store.reply now) s, l.Asks now x.call ∧ ¬ hidden x.call.key) :
    m.exchanges (Store.reply now) t = m.exchanges (Store.reply now) s ∧
      (m.run (Store.reply now) t).1 = (m.run (Store.reply now) s).1 ∧
      AgreeOutside l hidden now (m.run (Store.reply now) s).2 (m.run (Store.reply now) t).2 := by
  induction m generalizing s t with
  | done value => exact ⟨rfl, rfl, h⟩
  | ask call next ih =>
    rw [Interaction.exchanges_ask, List.forall_mem_cons] at hm
    obtain ⟨⟨hasks, hkey⟩, hrest⟩ := hm
    obtain ⟨hanswer, hafter⟩ := h.answer_both hs hnow hasks hkey
    have hreply : (Store.reply now t call).1 = (Store.reply now s call).1 :=
      congrArg Reply.answered hanswer.symm
    obtain ⟨hexchanges, hvalue, hagree⟩ := ih _ hafter hrest
    rw [Interaction.exchanges_ask, Interaction.exchanges_ask, Interaction.run_ask,
      Interaction.run_ask, hreply]
    exact ⟨congrArg _ hexchanges, hvalue, hagree⟩

end AgreeOutside

end Store

/-! ## Routine commands -/

/-- **Whether a command is routine:** a request to check, a change to the overrides, or
the passing of time. -/
def Command.isRoutine : Command → Bool
  | check _ | addOverride .. | removeOverride .. | advance _ | setClock _ => true
  | status _ | reset .. | resetFor .. | reload .. | purge | setOutage _ => false

theorem Command.isReload_of_isRoutine {command : Command} (h : command.isRoutine = true) :
    command.isReload = false := by
  cases command with
  | check | addOverride | removeOverride | advance | setClock => rfl
  | status | reset | resetFor | reload | purge | setOutage => cases h

/-- **The counters in which a request is counted** at a command. -/
def Happening.counted (h : Happening) : List String :=
  (h.exchanges.filter (·.call.isIncrement)).map (·.call.key)

theorem Happening.mem_counted {h : Happening} {key : String} :
    key ∈ h.counted ↔ ∃ x ∈ h.exchanges, x.call.isIncrement = true ∧ x.call.key = key := by
  simp only [counted, List.mem_map, List.mem_filter, and_assoc]

/-- **What there is to tell about a happening:** the command and its time, the exchanges
with the store, and the report with everything in it. -/
def Happening.told (h : Happening) : Command × Nat × List Exchange × Report :=
  (h.command, h.before.now, h.exchanges, h.report)

namespace Service

variable {d : Disturbance} {s t : Service} {command : Command}

/-- A routine command is about overrides, and counts. -/
theorem isIncrement_or_override_of_routine (hs : s.limiter.rules.Sound)
    (hroutine : command.isRoutine = true) :
    ∀ x ∈ (s.happening d command).exchanges, x.call.isIncrement = true ∨
      ∃ dimension value, x.call.key =
        overrideKey s.limiter.settings.keySpace dimension value := by
  cases hm : s.limiter.conversation s.now command with
  | none =>
    rw [exchanges_of_no_conversation hm]
    exact List.forall_mem_nil _
  | some m =>
    have hgoes := goes_happening (d := d) hm
    intro x hx
    cases command with
    | check request =>
      obtain ⟨e, metrics, hchecks, -⟩ := checks_happening d s request
      refine (hchecks.isIncrement_or_looks hs x hx).imp_right ?_
      rintro ⟨dimension, value, hcall⟩
      exact ⟨dimension, value, by rw [hcall, Call.key]⟩
    | addOverride dimension value ttl =>
      cases hm
      obtain ⟨_, hgoes, -⟩ := Interaction.goes_bind_done_iff.1 hgoes
      exact .inr ⟨dimension, _, by rw [Limiter.calls_of_requestWithin_goes hgoes x hx, Call.key]⟩
    | removeOverride dimension value =>
      cases hm
      obtain ⟨_, hgoes, -⟩ := Interaction.goes_bind_done_iff.1 hgoes
      exact .inr ⟨dimension, _, by rw [Limiter.calls_of_requestWithin_goes hgoes x hx, Call.key]⟩
    | advance | setClock => cases hm
    | status | reset | resetFor | reload | purge | setOutage => cases hroutine

/-- **A check counts in counters of its own:** under keys that the rules that govern the
request generate for it. So checks that have no such key in common count in no counter in
common. -/
theorem exists_forRequest_of_mem_counted (hs : s.limiter.rules.Sound) {request : Request}
    {key : String} (hkey : key ∈ (s.happening d (.check request)).counted) :
    ∃ rule ∈ s.limiter.rules.resolve request, ∃ counter,
      CounterKey.forRequest rule request (s.now / 1000) = some counter ∧
        key = counter.render s.limiter.settings.keySpace := by
  obtain ⟨x, hx, hcounts, rfl⟩ := Happening.mem_counted.1 hkey
  obtain ⟨e, metrics, hchecks, -⟩ := checks_happening d s request
  obtain ⟨rule, hgoverns, counter, heard, hcounter, hheard, -⟩ := hchecks.heard hs hx hcounts
  exact ⟨rule, hgoverns, counter, hcounter, hheard.call_key⟩

/-! ## Services -/

/-- **Two services that agree outside some keys of their stores.** -/
structure AgreeOutside (hidden : String → Prop) (s t : Service) : Prop where
  limiter : t.limiter = s.limiter
  clock : t.backend.clock = s.backend.clock
  outage : s.backend.outage = none
  outage_other : t.backend.outage = none
  store : Store.AgreeOutside s.limiter hidden s.now s.backend.store t.backend.store

namespace AgreeOutside

variable {hidden : String → Prop}

/-- **A check that one of them carries out** goes unnoticed if it counts in hidden
counters only. -/
theorem check_left (h : s.AgreeOutside hidden t) (hs : s.limiter.rules.Sound)
    (hnow : s.now < Word.max) {request : Request}
    (hcounted : ∀ key ∈ (s.happening .none (.check request)).counted, hidden key) :
    AgreeOutside hidden (s.handleAmid .none (.check request)).2 t := by
  obtain ⟨e, metrics, hchecks, -⟩ := checks_happening .none s request
  have hcalls : ∀ x ∈ (s.happening .none (.check request)).exchanges,
      s.limiter.Asks s.now x.call ∧ (hidden x.call.key ∨ ∃ key, x.call = .hasMarker key) := by
    intro x hx
    refine ⟨hchecks.asks hs x hx, ?_⟩
    rcases hchecks.isIncrement_or_looks hs x hx with hcounts | ⟨dimension, value, hcall⟩
    · exact .inl (hcounted _ (Happening.mem_counted.2 ⟨x, hx, hcounts, rfl⟩))
    · exact .inr ⟨_, hcall⟩
  obtain ⟨m, hm⟩ : ∃ m, s.limiter.conversation s.now (.check request) = some m := ⟨_, rfl⟩
  rw [exchanges_of_no_outage h.outage hm] at hcalls
  obtain ⟨-, hstore, hclock, hout⟩ := Backend.run_of_no_outage h.outage m
  have hafter := h.store.converse_left hs hnow hcalls
  rw [handleAmid_of_conversation hm]
  refine ⟨h.limiter, h.clock.trans hclock.symm, hout, h.outage_other, ?_⟩
  change Store.AgreeOutside s.limiter hidden (s.backend.run m).2.clock.now
    (s.backend.run m).2.store t.backend.store
  rw [hclock, hstore]
  exact hafter

/-- **A conversation that both carry out** goes the same way if it counts in none of the
hidden counters. -/
theorem conversation_both (h : s.AgreeOutside hidden t) (hs : s.limiter.rules.Sound)
    (hnow : s.now < Word.max) {m : Interaction Report}
    (hm : s.limiter.conversation s.now command = some m)
    (hclear : ∀ x ∈ (s.happening .none command).exchanges, ¬ hidden x.call.key) :
    (t.happening .none command).told = (s.happening .none command).told ∧
      AgreeOutside hidden (s.handleAmid .none command).2 (t.handleAmid .none command).2 := by
  have hnow' : t.now = s.now := congrArg Clock.now h.clock
  have hm' : t.limiter.conversation t.now command = some m := by
    rw [h.limiter, hnow']
    exact hm
  have hcalls : ∀ x ∈ m.exchanges (Store.reply s.now) s.backend.store,
      s.limiter.Asks s.now x.call ∧ ¬ hidden x.call.key := by
    rw [← exchanges_of_no_outage h.outage hm]
    exact fun x hx => ⟨happening_asks hs command x hx, hclear x hx⟩
  obtain ⟨hexchanges, hvalue, hafter⟩ := h.store.converse_both hs hnow hcalls
  obtain ⟨hv, hstore, hclock, hout⟩ := Backend.run_of_no_outage h.outage m
  obtain ⟨hv', hstore', hclock', hout'⟩ := Backend.run_of_no_outage h.outage_other m
  rw [h.clock] at hv' hstore' hclock'
  refine ⟨?_, ?_⟩
  · have hreports : (t.happening .none command).report = (s.happening .none command).report := by
      rw [Service.happening, Service.happening, handleAmid_of_conversation hm',
        handleAmid_of_conversation hm]
      exact hv'.trans (hvalue.trans hv.symm)
    have hsame : (t.happening .none command).exchanges = (s.happening .none command).exchanges := by
      rw [exchanges_of_no_outage h.outage_other hm', exchanges_of_no_outage h.outage hm, hnow']
      exact hexchanges
    rw [Happening.told, Happening.told, hreports, hsame]
    exact congrArg (fun time => (command, time, _, _)) hnow'
  · rw [handleAmid_of_conversation hm', handleAmid_of_conversation hm]
    refine ⟨h.limiter, hclock'.trans hclock.symm, hout, hout', ?_⟩
    change Store.AgreeOutside s.limiter hidden (s.backend.run m).2.clock.now
      (s.backend.run m).2.store (t.backend.run m).2.store
    rw [hclock, hstore, hstore']
    exact hafter

/-- The passing of time is the same for both. -/
theorem wait_both (h : s.AgreeOutside hidden t) (hroutine : command.isRoutine = true)
    (hforward : s.backend.clock.now ≤ (s.backend.clock.after command).now)
    (hm : s.limiter.conversation s.now command = none) :
    (t.happening .none command).told = (s.happening .none command).told ∧
      AgreeOutside hidden (s.handleAmid .none command).2 (t.handleAmid .none command).2 := by
  -- the two services are taken apart, since they share all but the store
  obtain ⟨limiter, store, clock, outage, calls⟩ := s
  obtain ⟨limiter', store', clock', outage', calls'⟩ := t
  obtain ⟨hlimiter, hclock, hout, hout', hstore⟩ := h
  dsimp only at hlimiter hclock
  subst hlimiter
  subst hclock
  cases command with
  | check | addOverride | removeOverride => cases hm
  | advance | setClock => exact ⟨rfl, rfl, rfl, hout, hout', hstore.later hforward⟩
  | status | reset | resetFor | reload | purge | setOutage => cases hroutine

/-- **A routine command that both carry out** goes the same way if it counts in none of
the hidden counters. -/
theorem happening_both (h : s.AgreeOutside hidden t) (hs : s.limiter.rules.Sound)
    (hnow : s.now < Word.max) (hroutine : command.isRoutine = true)
    (hforward : s.backend.clock.now ≤ (s.backend.clock.after command).now)
    (hoverrides : ∀ dimension value,
      ¬ hidden (overrideKey s.limiter.settings.keySpace dimension value))
    (hcounted : ∀ key ∈ (s.happening .none command).counted, ¬ hidden key) :
    (t.happening .none command).told = (s.happening .none command).told ∧
      AgreeOutside hidden (s.handleAmid .none command).2 (t.handleAmid .none command).2 := by
  cases hm : s.limiter.conversation s.now command with
  | none => exact h.wait_both hroutine hforward hm
  | some m =>
    refine h.conversation_both hs hnow hm ?_
    intro x hx
    rcases isIncrement_or_override_of_routine hs hroutine x hx with hcounts | ⟨_, _, hkey⟩
    · exact hcounted _ (Happening.mem_counted.2 ⟨x, hx, hcounts, rfl⟩)
    · rw [hkey]
      exact hoverrides _ _

/-- **A history of which one of them carries out a part only:** the commands that both
carry out go the same way, if all that is left out are checks that count in hidden
counters, and nothing else counts in these. -/
theorem chronicle {marked : List (Bool × Command)} (h : s.AgreeOutside hidden t)
    (hs : s.limiter.rules.Sound) (hclock : s.backend.clock.Steady (marked.map Prod.snd))
    (hroutine : ∀ c ∈ marked, c.2.isRoutine = true)
    (hchecks : ∀ c ∈ marked, c.1 = false → ∃ request, c.2 = .check request)
    (hoverrides : ∀ dimension value,
      ¬ hidden (overrideKey s.limiter.settings.keySpace dimension value))
    (hcounted : ∀ p ∈ (marked.map Prod.fst).zip (s.chronicle .none (marked.map Prod.snd)),
      ∀ key ∈ p.2.counted, hidden key ↔ p.1 = false) :
    (t.chronicle .none ((marked.filter Prod.fst).map Prod.snd)).map Happening.told =
      (((marked.map Prod.fst).zip (s.chronicle .none (marked.map Prod.snd))).filter Prod.fst).map
        (·.2.told) := by
  -- on the commands of the full history; the agreement of the two services carries it
  induction marked generalizing s t with
  | nil => rfl
  | cons c rest ih =>
    obtain ⟨keep, command⟩ := c
    rw [List.forall_mem_cons] at hroutine hchecks
    rw [List.map_cons, List.map_cons, Service.chronicle, List.zip_cons_cons,
      List.forall_mem_cons] at hcounted
    rw [List.map_cons] at hclock
    obtain ⟨hnow, hforward, hsteady⟩ := hclock
    rw [← clock_handleAmid Disturbance.onlyOutages_none] at hsteady
    have hlimiter := limiter_handleAmid_of_not_reload (d := .none) (s := s)
      (Command.isReload_of_isRoutine hroutine.1)
    have hrest : ∀ {t' : Service}, AgreeOutside hidden (s.handleAmid .none command).2 t' → _ :=
      fun h' => ih h' (sound_handleAmid hs command) hsteady hroutine.2 hchecks.2
        (by rw [hlimiter]; exact hoverrides) hcounted.2
    rw [List.map_cons, List.map_cons, Service.chronicle, List.zip_cons_cons]
    cases keep with
    | false =>
      obtain ⟨request, hcheck⟩ := hchecks.1 rfl
      dsimp only at hcheck
      subst hcheck
      rw [List.filter_cons_of_neg Bool.false_ne_true, List.filter_cons_of_neg Bool.false_ne_true]
      exact hrest (h.check_left hs hnow fun key hkey => (hcounted.1 key hkey).2 rfl)
    | true =>
      obtain ⟨htold, hagree⟩ := h.happening_both hs hnow hroutine.1 hforward hoverrides
        fun key hkey hhidden => Bool.false_ne_true ((hcounted.1 key hkey).1 hhidden).symm
      rw [List.filter_cons_of_pos rfl, List.filter_cons_of_pos rfl, List.map_cons, List.map_cons,
        Service.chronicle, List.map_cons, htold, hrest hagree]

end AgreeOutside

end Service

/-- **Checks go unnoticed that share no counter with the others.** A limiter with rules
that could be made carries out checks and changes to the overrides, over a clock that
never goes backward and a store that does not fail. Some of the checks are marked as left
out, by `false`.

If none of these counts in a counter in which a check that stays counts too, then without
them all that stays goes the same way: the same exchanges with the store at the same
times, and the same reports with everything in them. What a check counts in is among the
keys generated for its request (`Service.exists_forRequest_of_mem_counted`). -/
theorem checks_unnoticed_apart {rules : List Rule} {defaults : DefaultLimits} {set : RuleSet}
    (hbuild : RuleSet.build rules defaults = .ok set) (settings : LimiterSettings)
    (whitelist : Whitelist) {start : Nat} {marked : List (Bool × Command)}
    (hroutine : ∀ c ∈ marked, c.2.isRoutine = true)
    (hchecks : ∀ c ∈ marked, c.1 = false → ∃ request, c.2 = .check request)
    (hclock : (Clock.mk start).Steady (marked.map Prod.snd)) :
    let s := Service.start ⟨settings, set, whitelist⟩ start
    let history := (marked.map Prod.fst).zip (s.chronicle .none (marked.map Prod.snd))
    let stays := (marked.filter Prod.fst).map Prod.snd
    (∀ p ∈ history, p.1 = false → ∀ q ∈ history, q.1 = true →
      ∀ key ∈ p.2.counted, key ∉ q.2.counted) →
    (s.chronicle .none stays).map Happening.told =
        (history.filter Prod.fst).map (·.2.told) ∧
      (s.run stays).1 = (history.filter Prod.fst).map (·.2.report) := by
  have hs : set.Sound := RuleSet.sound_of_build hbuild
  intro s history stays hapart
  have hreload : ∀ command ∈ marked.map Prod.snd, command.isReload = false := by
    intro command hcommand
    obtain ⟨c, hc, rfl⟩ := List.mem_map.1 hcommand
    exact Command.isReload_of_isRoutine (hroutine c hc)
  -- the counters of the checks that are left out
  let hidden (key : String) : Prop := ∃ p ∈ history, p.1 = false ∧ key ∈ p.2.counted
  have hoverrides : ∀ dimension value,
      ¬ hidden (overrideKey settings.keySpace dimension value) := by
    rintro dimension value ⟨p, hp, -, hkey⟩
    obtain ⟨x, hx, hcounts, hkey⟩ := Happening.mem_counted.1 hkey
    have hasks := Service.asks_of_mem_chronicle hreload hs (List.of_mem_zip hp).2 x hx
    exact hasks.key_ne_overrideKey hcounts dimension value hkey
  have hcounted : ∀ p ∈ history, ∀ key ∈ p.2.counted, hidden key ↔ p.1 = false := by
    intro p hp key hkey
    refine ⟨?_, fun hleft => ⟨p, hp, hleft, hkey⟩⟩
    rintro ⟨q, hq, hleft, hkey'⟩
    rw [← Bool.not_eq_true]
    exact fun hstays => hapart q hq hleft p hp hstays key hkey' hkey
  have hself : s.AgreeOutside hidden s :=
    ⟨rfl, rfl, rfl, rfl, .refl (Store.orderly_empty _ start) hidden⟩
  have htold := hself.chronicle hs hclock hroutine hchecks hoverrides hcounted
  refine ⟨htold, ?_⟩
  rw [Service.run_eq_chronicle]
  have hreports := congrArg (List.map fun told => told.2.2.2) htold
  rwa [List.map_map, List.map_map] at hreports

/-! ## A history -/

namespace IsolationSample

/-- One request a minute from each address. -/
def rule : Rule := Rule.basic "login" .address 1 60

def settings : LimiterSettings := ⟨true, false, 50, "turnstile"⟩

def request (address : String) : Request := .describe "POST" "/login" address

/-- Two addresses by turns. The checks of the first are left out as long as the first
minute lasts. -/
def marked : List (Bool × Command) :=
  [(false, .check (request "10.0.0.1")), (true, .check (request "10.0.0.2")),
    (true, .addOverride .caller "ann" none), (false, .check (request "10.0.0.1")),
    (true, .advance 40000), (true, .check (request "10.0.0.1")),
    (true, .check (request "10.0.0.1")), (true, .check (request "10.0.0.2"))]

end IsolationSample

open IsolationSample in
/-- In the second minute the first address counts in another counter than before, so its
checks from then on do not notice that the earlier ones are missing; nor does the second
address. -/
theorem checks_unnoticed_apart_of_login :
    let s := Service.start ⟨settings, ⟨[rule]⟩, .ofConfig .empty⟩ 30000
    let history := (marked.map Prod.fst).zip (s.chronicle .none (marked.map Prod.snd))
    let stays := (marked.filter Prod.fst).map Prod.snd
    (s.run stays).1.map (·.deniesBy "login") = [false, false, false, false, true, false] ∧
      (s.run stays).1 = (history.filter Prod.fst).map (·.2.report) := by
  have hbuild : RuleSet.build [rule] .empty = .ok ⟨[rule]⟩ := rfl
  have hroutine : ∀ c ∈ marked, c.2.isRoutine = true := by decide
  have hchecks : ∀ c ∈ marked, c.1 = false → ∃ request, c.2 = .check request := by
    simp [marked]
  have hclock : (Clock.mk 30000).Steady (marked.map Prod.snd) := by decide
  have h := checks_unnoticed_apart hbuild settings (.ofConfig .empty) hroutine hchecks hclock
    (by decide +kernel)
  exact ⟨by decide +kernel, h.2⟩

end Admission
