/-
Histories: a service followed from one command to the next, with everything that
was asked of its store on the way.

`Service.run` keeps the reports alone. `Service.chronicle` keeps, for each command,
the service before it, the exchanges with the store and the report, and lets the
backend be disturbed before any of the calls, so one definition covers every
schedule of failures; undisturbed it is `Service.run` (`run_eq_chronicle`). A
history is then read twice: its exchanges are what a store serves
(`chronicle_serves`), and they are what a limiter asks (`happening_asks`).
-/
import Admission.Proofs.Conversation
import Admission.Service

set_option autoImplicit false

namespace Admission

/-! ## Clocks that go forward -/

/-- The clock after a command. -/
def Clock.after (c : Clock) : Command → Clock
  | .advance millis => c.advance millis
  | .setClock now => c.set now
  | _ => c

/-- **A clock that never goes backward** over some commands and stays below the
largest word. -/
def Clock.Steady (c : Clock) : List Command → Prop
  | [] => c.now < Word.max
  | command :: rest =>
    c.now < Word.max ∧ c.now ≤ (c.after command).now ∧ (c.after command).Steady rest

instance Clock.decidableSteady (c : Clock) (commands : List Command) :
    Decidable (c.Steady commands) :=
  match commands with
  | [] => inferInstanceAs (Decidable (c.now < Word.max))
  | command :: rest =>
    have := decidableSteady (c.after command) rest
    inferInstanceAs (Decidable (_ ∧ _ ∧ _))

theorem Clock.Steady.now_lt {c : Clock} {commands : List Command} (h : c.Steady commands) :
    c.now < Word.max := by
  cases commands with
  | nil => exact h
  | cons => exact h.1

/-- Whether a command puts other rules in force. -/
def Command.isReload : Command → Bool
  | reload .. => true
  | _ => false

/-- The rules that a command puts in force, if it does. -/
def Command.rules? : Command → Option RuleSet
  | reload rules defaults => (RuleSet.build rules defaults).toOption
  | _ => none

/-- Whatever rules a reload puts in force, they could be made. -/
theorem Command.sound_of_rules? {command : Command} {set : RuleSet}
    (h : command.rules? = some set) : set.Sound := by
  cases command with
  | reload rules defaults =>
    rw [rules?] at h
    cases hbuild : RuleSet.build rules defaults with
    | ok built =>
      rw [hbuild] at h
      cases h
      exact RuleSet.sound_of_build hbuild
    | error error =>
      rw [hbuild] at h
      cases h
  | check | status | reset | resetFor | addOverride | removeOverride | advance | setClock | purge
  | setOutage => cases h

/-- Whether a command begins or ends an outage. -/
def Command.setsOutage : Command → Bool
  | setOutage _ => true
  | _ => false

/-! ## Disturbed backends -/

/-- **What happens to a backend before each call,** which is known by the number of
calls made before it. -/
abbrev Disturbance := Nat → Backend → Backend

/-- Nothing happens. -/
def Disturbance.none : Disturbance := fun _ b => b

/-- **A schedule of failures:** outages begin and end, and nothing else happens. -/
def Disturbance.OnlyOutages (d : Disturbance) : Prop :=
  ∀ i b, ∃ outage, d i b = { b with outage := outage }

theorem Disturbance.onlyOutages_none : none.OnlyOutages := fun _ b => ⟨b.outage, rfl⟩

namespace Backend

/-- One call, after what happens before it. -/
def answerAmid (d : Disturbance) (b : Backend) (call : Call) : Reply call.Answer × Backend :=
  (d b.calls.length b).answer call

/-- **A call is answered by the store, or fails and leaves the store alone.** -/
theorem answer_cases (b : Backend) (call : Call) :
    (b.answer call).2.clock = b.clock ∧
      ((b.answer call).1 = .answered (b.store.answer b.clock.now call).1 ∧
          (b.answer call).2.store = (b.store.answer b.clock.now call).2 ∨
        (b.answer call).1.answer? = .none ∧ (b.answer call).2.store = b.store) := by
  obtain ⟨store, clock, outage, calls⟩ := b
  cases outage with
  | none => exact ⟨rfl, .inl ⟨rfl, rfl⟩⟩
  | some outage =>
    unfold answer
    dsimp only
    split
    · rename_i reply hstrike
      refine ⟨rfl, .inr ⟨?_, rfl⟩⟩
      unfold Outage.strike at hstrike
      split at hstrike
      · cases hstrike
      split at hstrike
      · cases hstrike
      split at hstrike <;> cases hstrike <;> rfl
    · exact ⟨rfl, .inl ⟨rfl, rfl⟩⟩

/-- A backend without an outage answers every call. -/
theorem answer_of_no_outage {b : Backend} (h : b.outage = none) (call : Call) :
    b.answer call = (.answered (b.store.answer b.clock.now call).1,
      { b with store := (b.store.answer b.clock.now call).2, calls := call :: b.calls }) := by
  unfold answer
  rw [h]
  rfl

variable {α : Type} {d : Disturbance}

/-- **A conversation without outages** is one with a store that never fails. -/
theorem run_of_no_outage {b : Backend} (h : b.outage = none) (m : Interaction α) :
    (b.run m).1 = (m.run (Store.reply b.clock.now) b.store).1 ∧
      (b.run m).2.store = (m.run (Store.reply b.clock.now) b.store).2 ∧
      (b.run m).2.clock = b.clock ∧ (b.run m).2.outage = none := by
  unfold run
  induction m generalizing b with
  | done value => exact ⟨rfl, rfl, rfl, h⟩
  | ask call next ih =>
    rw [Interaction.run_ask, Interaction.run_ask, answer_of_no_outage h]
    exact ih _ h

/-- The exchanges of a conversation without outages. -/
theorem exchanges_of_no_outage {b : Backend} (h : b.outage = none) (m : Interaction α) :
    m.exchanges (answerAmid .none) b = m.exchanges (Store.reply b.clock.now) b.store := by
  induction m generalizing b with
  | done value => rfl
  | ask call next ih =>
    have hanswer : b.answerAmid .none call = _ := answer_of_no_outage h call
    rw [Interaction.exchanges_ask, Interaction.exchanges_ask, hanswer]
    exact congrArg _ (ih _ h)

theorem answerAmid_cases (hd : d.OnlyOutages) (b : Backend) (call : Call) :
    (b.answerAmid d call).2.clock = b.clock ∧
      ((b.answerAmid d call).1 = .answered (b.store.answer b.clock.now call).1 ∧
          (b.answerAmid d call).2.store = (b.store.answer b.clock.now call).2 ∨
        (b.answerAmid d call).1.answer? = .none ∧ (b.answerAmid d call).2.store = b.store) := by
  obtain ⟨outage, hb⟩ := hd b.calls.length b
  rw [answerAmid, hb]
  exact answer_cases { b with outage := outage } call

theorem clock_run_answerAmid (hd : d.OnlyOutages) (m : Interaction α) (b : Backend) :
    (m.run (answerAmid d) b).2.clock = b.clock := by
  induction m generalizing b with
  | done value => rfl
  | ask call next ih => exact (ih _ _).trans (answerAmid_cases hd b call).1

/-- **A store serves a conversation,** whatever outages there are. -/
theorem serves_run_answerAmid (hd : d.OnlyOutages) (m : Interaction α) (b : Backend) :
    Store.Serves b.clock.now b.store
      ((m.exchanges (answerAmid d) b).map (b.clock.now, ·))
      (m.run (answerAmid d) b).2.clock.now (m.run (answerAmid d) b).2.store := by
  induction m generalizing b with
  | done value => exact .nil
  | ask call next ih =>
    have hrest := ih (b.answerAmid d call).1 (b.answerAmid d call).2
    obtain ⟨hclock, hreply⟩ := answerAmid_cases hd b call
    rw [hclock] at hrest
    rw [Interaction.exchanges_ask, List.map_cons, Interaction.run_ask]
    rcases hreply with ⟨hreply, hstore⟩ | ⟨hreply, hstore⟩
    · rw [hstore] at hrest
      rw [hreply] at hrest ⊢
      exact .answered hrest
    · -- the store does not notice a call that fails
      rw [hstore] at hrest
      refine .refused ?_ hrest
      simp [Exchange.IsAnswered, hreply]

end Backend

/-! ## Lookups in a store that does not fail -/

namespace Whitelist

theorem run_findMarker (budget : Nat) (keys : List String) (now : Nat) (s : Store) :
    (findMarker budget keys).run (Store.reply now) s = (.ok (keys.any (s.hasMarker now)), s) := by
  induction keys with
  | nil => rfl
  | cons key rest ih =>
    have hreply : Store.reply now s (.hasMarker key) = (.answered (s.hasMarker now key), s) := rfl
    rw [findMarker, Interaction.run_ask, hreply, List.any_cons]
    cases s.hasMarker now key with
    | true => rfl
    | false => exact ih

/-- **Who is let past:** whom the lists let past, and if the whitelist is dynamic, who has
a marker. -/
theorem run_lets (w : Whitelist) (space : String) (budget : Nat) (request : Request) (now : Nat)
    (s : Store) :
    (w.lets space budget request).run (Store.reply now) s =
      (w.matchesLists request ||
        w.dynamic && (markerKeys space request).any (s.hasMarker now), s) := by
  unfold lets
  cases w.matchesLists request with
  | true => rfl
  | false =>
    cases w.dynamic with
    | false => rfl
    | true =>
      rw [if_neg Bool.false_ne_true, Bool.not_true, if_neg Bool.false_ne_true,
        Interaction.run_bind, run_findMarker]
      rfl

end Whitelist

/-! ## Commands that are conversations -/

/-- What a limiter asks of its store in order to carry out a command, if that is
what it takes. -/
def Limiter.conversation (l : Limiter) (now : Nat) : Command → Option (Interaction Report)
  | .check request =>
    some ((l.check request now).bind fun answer => .done (.decision answer.1 answer.2))
  | .status request => some ((l.status request now).bind fun result => .done (.usage result))
  | .reset ruleId request =>
    some ((l.reset ruleId request now).bind fun result => .done (.removed result))
  | .resetFor ruleIds source =>
    some ((l.resetFor ruleIds source now).bind fun result => .done (.removedCount result))
  | .addOverride dimension value ttl =>
    some ((l.addOverride dimension value ttl).bind fun result => .done (.acknowledged result))
  | .removeOverride dimension value =>
    some ((l.removeOverride dimension value).bind fun result => .done (.removed result))
  | .reload .. | .advance _ | .setClock _ | .purge | .setOutage _ => none

/-! ## Happenings -/

/-- **What happens at one command:** the service before it, the exchanges with the
store, and the report. -/
structure Happening where
  before : Service
  command : Command
  exchanges : List Exchange
  report : Report

/-- The exchanges of some happenings, with their times. -/
def Happening.journal (hs : List Happening) : List (Nat × Exchange) :=
  hs.flatMap fun h => h.exchanges.map (h.before.now, ·)

theorem Happening.journal_append (hs ks : List Happening) :
    journal (hs ++ ks) = journal hs ++ journal ks := List.flatMap_append

theorem Happening.mem_journal {hs : List Happening} {j : Nat × Exchange} :
    j ∈ journal hs ↔ ∃ h ∈ hs, ∃ x ∈ h.exchanges, (h.before.now, x) = j := by
  simp only [journal, List.mem_flatMap, List.mem_map]

theorem Happening.journal_cons (h : Happening) (hs : List Happening) :
    journal (h :: hs) = h.exchanges.map (h.before.now, ·) ++ journal hs := List.flatMap_cons

/-- Nothing under a key was removed on demand. -/
def Happening.Unreset (key : String) (hs : List Happening) : Prop :=
  ∀ h ∈ hs, ∀ x ∈ h.exchanges, ¬ x.resets key

instance (key : String) (hs : List Happening) : Decidable (Happening.Unreset key hs) :=
  inferInstanceAs (Decidable (∀ h ∈ hs, ∀ x ∈ h.exchanges, ¬ x.resets key))

/-- What leaves a trace in its exchanges happens no more often than the trace is
found in the journal. -/
theorem Happening.countP_le_countP_journal {p : Happening → Bool} {q : Nat × Exchange → Bool}
    {hs : List Happening}
    (h : ∀ h ∈ hs, p h = true → ∃ x ∈ h.exchanges, q (h.before.now, x) = true) :
    hs.countP p ≤ (journal hs).countP q := by
  induction hs with
  | nil => exact Nat.le_refl 0
  | cons first rest ih =>
    rw [List.forall_mem_cons] at h
    have hrest := ih h.2
    rw [← List.singleton_append, journal_append, List.countP_append, List.countP_append]
    refine Nat.add_le_add ?_ hrest
    cases hp : p first with
    | false => simp [hp]
    | true =>
      obtain ⟨x, hx, hq⟩ := h.1 hp
      have hpos : 0 < (journal [first]).countP q :=
        List.countP_pos_iff.2 ⟨_, mem_journal.2 ⟨first, by simp, x, hx, rfl⟩, hq⟩
      simpa [hp] using hpos

namespace Service

variable {d : Disturbance}

/-- Carrying out a command while the backend is disturbed. -/
def handleAmid (d : Disturbance) (s : Service) (command : Command) : Report × Service :=
  match s.limiter.conversation s.now command with
  | none => s.handle command
  | some m =>
    let (report, backend) := m.run (Backend.answerAmid d) s.backend
    (report, { s with backend := backend })

/-- What happens at a command while the backend is disturbed. -/
def happening (d : Disturbance) (s : Service) (command : Command) : Happening where
  before := s
  command := command
  exchanges := ((s.limiter.conversation s.now command).map
    (·.exchanges (Backend.answerAmid d) s.backend)).getD []
  report := (s.handleAmid d command).1

/-- **Everything that happens in a history.** -/
def chronicle (d : Disturbance) (s : Service) : List Command → List Happening
  | [] => []
  | command :: rest =>
    s.happening d command :: (s.handleAmid d command).2.chronicle d rest

/-- The service after a history. -/
def after (d : Disturbance) (s : Service) : List Command → Service
  | [] => s
  | command :: rest => (s.handleAmid d command).2.after d rest

theorem handleAmid_of_conversation {s : Service} {command : Command} {m : Interaction Report}
    (h : s.limiter.conversation s.now command = some m) :
    s.handleAmid d command = ((m.run (Backend.answerAmid d) s.backend).1,
      { s with backend := (m.run (Backend.answerAmid d) s.backend).2 }) := by
  rw [handleAmid, h]

theorem handleAmid_of_no_conversation {s : Service} {command : Command}
    (h : s.limiter.conversation s.now command = none) :
    s.handleAmid d command = s.handle command := by
  rw [handleAmid, h]

theorem exchanges_of_conversation {s : Service} {command : Command} {m : Interaction Report}
    (h : s.limiter.conversation s.now command = some m) :
    (s.happening d command).exchanges = m.exchanges (Backend.answerAmid d) s.backend := by
  rw [happening, h]
  rfl

theorem exchanges_of_no_conversation {s : Service} {command : Command}
    (h : s.limiter.conversation s.now command = none) :
    (s.happening d command).exchanges = [] := by
  rw [happening, h]
  rfl

/-- What is exchanged at a command belongs to a conversation. -/
theorem exists_conversation_of_mem {s : Service} {command : Command} {x : Exchange}
    (hx : x ∈ (s.happening d command).exchanges) :
    ∃ m, s.limiter.conversation s.now command = some m := by
  cases hm : s.limiter.conversation s.now command with
  | none =>
    rw [exchanges_of_no_conversation hm] at hx
    cases hx
  | some m => exact ⟨m, rfl⟩

/-- A conversation takes no time. -/
theorem clock_after_of_conversation {s : Service} {command : Command} {m : Interaction Report}
    (h : s.limiter.conversation s.now command = some m) (c : Clock) : c.after command = c := by
  cases command with
  | check | status | reset | resetFor | addOverride | removeOverride => rfl
  | reload | advance | setClock | purge | setOutage => cases h

/-- Undisturbed, a command is carried out as it is. -/
theorem handleAmid_none (s : Service) (command : Command) :
    s.handleAmid .none command = s.handle command := by
  cases command with
  | check | status | reset | resetFor | addOverride | removeOverride =>
    rw [handleAmid, Limiter.conversation]
    dsimp only
    rw [Interaction.run_bind]
    rfl
  | reload | advance | setClock | purge | setOutage => rfl

/-- **An undisturbed chronicle is a run.** -/
theorem run_eq_chronicle (s : Service) (commands : List Command) :
    s.run commands = ((s.chronicle .none commands).map Happening.report, s.after .none commands) := by
  induction commands generalizing s with
  | nil => rfl
  | cons command rest ih =>
    rw [run, chronicle, after, List.map_cons, happening]
    dsimp only
    rw [handleAmid_none, ih]

theorem after_append (s : Service) (first second : List Command) :
    s.after d (first ++ second) = (s.after d first).after d second := by
  induction first generalizing s with
  | nil => rfl
  | cons command rest ih => rw [List.cons_append, after, ih, after]

/-! ## The store's half -/

theorem clock_handleAmid (hd : d.OnlyOutages) (s : Service) (command : Command) :
    (s.handleAmid d command).2.backend.clock = s.backend.clock.after command := by
  cases hm : s.limiter.conversation s.now command with
  | some m =>
    rw [handleAmid_of_conversation hm, clock_after_of_conversation hm]
    exact Backend.clock_run_answerAmid hd m s.backend
  | none =>
    rw [handleAmid_of_no_conversation hm]
    cases command with
    | check | status | reset | resetFor | addOverride | removeOverride => cases hm
    | reload rules defaults =>
      rw [handle]
      split <;> rfl
    | advance | setClock | purge | setOutage => rfl

/-- **A store serves a command.** -/
theorem serves_happening (hd : d.OnlyOutages) {s : Service} {command : Command}
    (hc : s.backend.clock.now ≤ (s.backend.clock.after command).now) :
    Store.Serves s.now s.backend.store (Happening.journal [s.happening d command])
      (s.handleAmid d command).2.now (s.handleAmid d command).2.backend.store := by
  rw [Happening.journal, List.flatMap_singleton]
  cases hm : s.limiter.conversation s.now command with
  | some m =>
    rw [exchanges_of_conversation hm, handleAmid_of_conversation hm]
    exact Backend.serves_run_answerAmid hd m s.backend
  | none =>
    rw [exchanges_of_no_conversation hm, handleAmid_of_no_conversation hm]
    cases command with
    | check | status | reset | resetFor | addOverride | removeOverride => cases hm
    | reload rules defaults =>
      rw [handle]
      split <;> exact .nil
    | advance | setClock => exact .waited hc .nil
    | purge => exact .swept .nil
    | setOutage => exact .nil

/-- A steady clock is steady in both parts of a history. -/
theorem steady_append (hd : d.OnlyOutages) {s : Service} {first second : List Command}
    (hc : s.backend.clock.Steady (first ++ second)) :
    s.backend.clock.Steady first ∧ (s.after d first).backend.clock.Steady second := by
  induction first generalizing s with
  | nil =>
    -- of the second part only the time at which it begins is needed
    refine ⟨?_, hc⟩
    cases second with
    | nil => exact hc
    | cons => exact hc.1
  | cons command rest ih =>
    obtain ⟨hnow, hforward, hrest⟩ := hc
    rw [← clock_handleAmid hd] at hrest
    obtain ⟨hfirst, hsecond⟩ := ih hrest
    rw [clock_handleAmid hd] at hfirst
    exact ⟨⟨hnow, hforward, hfirst⟩, hsecond⟩

/-- **A store serves a history** whose clock is steady. -/
theorem chronicle_serves (hd : d.OnlyOutages) {s : Service} {commands : List Command}
    (hc : s.backend.clock.Steady commands) :
    Store.Serves s.now s.backend.store (Happening.journal (s.chronicle d commands))
      (s.after d commands).now (s.after d commands).backend.store := by
  induction commands generalizing s with
  | nil => exact .nil
  | cons command rest ih =>
    obtain ⟨-, hforward, hrest⟩ := hc
    rw [← clock_handleAmid hd] at hrest
    rw [chronicle, after, ← List.singleton_append, Happening.journal_append]
    exact (serves_happening hd hforward).append (ih hrest)

/-- A command leaves each key once in the store, also one that turns the clock back. -/
theorem distinct_handleAmid (hd : d.OnlyOutages) {s : Service} (h : s.backend.store.Distinct)
    (command : Command) : (s.handleAmid d command).2.backend.store.Distinct := by
  cases hm : s.limiter.conversation s.now command with
  | some m =>
    rw [handleAmid_of_conversation hm]
    exact (Backend.serves_run_answerAmid hd m s.backend).distinct h
  | none =>
    rw [handleAmid_of_no_conversation hm]
    cases command with
    | check | status | reset | resetFor | addOverride | removeOverride => cases hm
    | reload rules defaults =>
      rw [handle]
      split <;> exact h
    | purge => exact h.sweep _
    | advance | setClock | setOutage => exact h

theorem distinct_after (hd : d.OnlyOutages) {s : Service} (h : s.backend.store.Distinct)
    (commands : List Command) : (s.after d commands).backend.store.Distinct := by
  induction commands generalizing s with
  | nil => exact h
  | cons command rest ih => exact ih (distinct_handleAmid hd h command)

theorem now_after_lt (hd : d.OnlyOutages) {s : Service} {commands : List Command}
    (hc : s.backend.clock.Steady commands) : (s.after d commands).now < Word.max := by
  induction commands generalizing s with
  | nil => exact hc
  | cons command rest ih =>
    obtain ⟨-, -, hrest⟩ := hc
    rw [← clock_handleAmid hd] at hrest
    exact ih hrest

/-- The times of a history are below the largest word. -/
theorem now_lt_of_mem_chronicle (hd : d.OnlyOutages) {s : Service} {commands : List Command}
    (hc : s.backend.clock.Steady commands) {h : Happening} (hh : h ∈ s.chronicle d commands) :
    h.before.now < Word.max := by
  induction commands generalizing s with
  | nil => cases hh
  | cons command rest ih =>
    obtain ⟨hnow, -, hrest⟩ := hc
    rw [← clock_handleAmid hd] at hrest
    rcases List.mem_cons.1 hh with rfl | hh
    · exact hnow
    · exact ih hrest hh

/-! ## No outages -/

theorem outage_handleAmid {s : Service} (h : s.backend.outage = none) {command : Command}
    (hc : command.setsOutage = false) : (s.handleAmid .none command).2.backend.outage = none := by
  cases hm : s.limiter.conversation s.now command with
  | some m =>
    rw [handleAmid_of_conversation hm]
    exact (Backend.run_of_no_outage h m).2.2.2
  | none =>
    rw [handleAmid_of_no_conversation hm]
    cases command with
    | check | status | reset | resetFor | addOverride | removeOverride => cases hm
    | reload rules defaults =>
      rw [handle]
      split
      · exact h
      · exact h
    | advance | setClock | purge => exact h
    | setOutage => cases hc

theorem outage_after {s : Service} (h : s.backend.outage = none) {commands : List Command}
    (hc : ∀ command ∈ commands, command.setsOutage = false) :
    (s.after .none commands).backend.outage = none := by
  induction commands generalizing s with
  | nil => exact h
  | cons command rest ih =>
    rw [List.forall_mem_cons] at hc
    exact ih (outage_handleAmid h hc.1) hc.2

/-- Without an outage a conversation is one with a store that never fails. -/
theorem converse_of_no_outage {s : Service} (h : s.backend.outage = none) {α : Type}
    (m : Interaction α) :
    (s.converse m).1 = (m.run (Store.reply s.now) s.backend.store).1 ∧
      (s.converse m).2.backend.store = (m.run (Store.reply s.now) s.backend.store).2 ∧
      (s.converse m).2.backend.outage = none ∧ (s.converse m).2.now = s.now ∧
      (s.converse m).2.limiter = s.limiter := by
  obtain ⟨hvalue, hstore, hclock, houtage⟩ := Backend.run_of_no_outage h m
  exact ⟨hvalue, hstore, houtage, congrArg Clock.now hclock, rfl⟩

/-- And these are its exchanges with that store. -/
theorem exchanges_of_no_outage {s : Service} (h : s.backend.outage = none) {command : Command}
    {m : Interaction Report} (hm : s.limiter.conversation s.now command = some m) :
    (s.happening .none command).exchanges = m.exchanges (Store.reply s.now) s.backend.store := by
  rw [exchanges_of_conversation hm]
  exact Backend.exchanges_of_no_outage h m

/-- **Without an outage every call is answered.** -/
theorem isAnswered_of_no_outage {s : Service} (h : s.backend.outage = none) {command : Command}
    {x : Exchange} (hx : x ∈ (s.happening .none command).exchanges) : x.IsAnswered := by
  obtain ⟨m, hm⟩ := exists_conversation_of_mem hx
  rw [exchanges_of_no_outage h hm] at hx
  obtain ⟨u, hreply⟩ := Interaction.exists_answer_of_mem_exchanges hx
  rw [Exchange.IsAnswered, hreply]
  rfl

/-! ## The limiter's half -/

/-- **The limiter after a command:** it changes its rules at most. -/
theorem limiter_handleAmid (s : Service) (command : Command) :
    (s.handleAmid d command).2.limiter = command.rules?.elim s.limiter s.limiter.reload := by
  cases hm : s.limiter.conversation s.now command with
  | some m =>
    rw [handleAmid_of_conversation hm]
    cases command with
    | check | status | reset | resetFor | addOverride | removeOverride => rfl
    | reload | advance | setClock | purge | setOutage => cases hm
  | none =>
    rw [handleAmid_of_no_conversation hm]
    cases command with
    | check | status | reset | resetFor | addOverride | removeOverride => cases hm
    | reload rules defaults =>
      rw [handle, Command.rules?]
      cases RuleSet.build rules defaults with
      | ok set => rfl
      | error error => rfl
    | advance | setClock | purge | setOutage => rfl

theorem limiter_handleAmid_of_not_reload {s : Service} {command : Command}
    (h : command.isReload = false) : (s.handleAmid d command).2.limiter = s.limiter := by
  rw [limiter_handleAmid]
  cases command with
  | reload => cases h
  | check | status | reset | resetFor | addOverride | removeOverride | advance | setClock | purge
  | setOutage => rfl

/-- A command may put other rules in force, and leaves the limiter as it is otherwise. -/
theorem exists_reload_handleAmid (s : Service) (command : Command) :
    ∃ set, (s.handleAmid d command).2.limiter = s.limiter.reload set := by
  rw [limiter_handleAmid]
  cases command.rules? with
  | none => exact ⟨s.limiter.rules, rfl⟩
  | some set => exact ⟨set, rfl⟩

theorem exists_reload_after (s : Service) (commands : List Command) :
    ∃ set, (s.after d commands).limiter = s.limiter.reload set := by
  induction commands generalizing s with
  | nil => exact ⟨s.limiter.rules, rfl⟩
  | cons command rest ih =>
    obtain ⟨first, hfirst⟩ := exists_reload_handleAmid (d := d) s command
    obtain ⟨set, hset⟩ := ih (s.handleAmid d command).2
    refine ⟨set, ?_⟩
    rw [after, hset, hfirst]
    rfl

theorem sound_handleAmid {s : Service} (h : s.limiter.rules.Sound) (command : Command) :
    (s.handleAmid d command).2.limiter.rules.Sound := by
  rw [limiter_handleAmid]
  cases hrules : command.rules? with
  | none => exact h
  | some set => exact Command.sound_of_rules? hrules

theorem sound_after {s : Service} (h : s.limiter.rules.Sound) (commands : List Command) :
    (s.after d commands).limiter.rules.Sound := by
  induction commands generalizing s with
  | nil => exact h
  | cons command rest ih => exact ih (sound_handleAmid h command)

theorem limiter_after {s : Service} {commands : List Command}
    (h : ∀ command ∈ commands, command.isReload = false) :
    (s.after d commands).limiter = s.limiter := by
  induction commands generalizing s with
  | nil => rfl
  | cons command rest ih =>
    rw [List.forall_mem_cons] at h
    rw [after, ih h.2, limiter_handleAmid_of_not_reload h.1]

/-- Without a reload, everything that happens happens to the same limiter. -/
theorem exists_of_mem_chronicle {s : Service} {commands : List Command}
    (hr : ∀ command ∈ commands, command.isReload = false) {h : Happening}
    (hh : h ∈ s.chronicle d commands) :
    ∃ (t : Service) (command : Command),
      t.limiter = s.limiter ∧ h = t.happening d command := by
  induction commands generalizing s with
  | nil => cases hh
  | cons command rest ih =>
    rw [List.forall_mem_cons] at hr
    rcases List.mem_cons.1 hh with rfl | hh
    · exact ⟨s, command, rfl, rfl⟩
    · obtain ⟨t, c, ht, rfl⟩ := ih hr.2 hh
      exact ⟨t, c, ht.trans (limiter_handleAmid_of_not_reload hr.1), rfl⟩

/-- A conversation at a command takes the exchanges that happen to the report. -/
theorem goes_happening {s : Service} {command : Command} {m : Interaction Report}
    (h : s.limiter.conversation s.now command = some m) :
    m.Goes (s.happening d command).exchanges (s.happening d command).report := by
  rw [exchanges_of_conversation h, happening]
  dsimp only
  rw [handleAmid_of_conversation h]
  exact Interaction.goes_exchanges (Backend.answerAmid d) m s.backend

/-- **What happens at a check** is the course of a check. -/
theorem checks_happening (d : Disturbance) (s : Service) (request : Request) :
    ∃ e metrics, s.limiter.Checks request s.now (s.happening d (.check request)).exchanges e ∧
      (s.happening d (.check request)).report = .decision
        (e.result s.limiter.settings.failOpen s.limiter.settings.keySpace request (s.now / 1000))
        metrics := by
  have hm : s.limiter.conversation s.now (.check request) =
    some ((s.limiter.check request s.now).bind fun answer =>
      .done (.decision answer.1 answer.2)) := rfl
  obtain ⟨answer, hgoes, hreport⟩ :=
    Interaction.goes_bind_done_iff.1 (goes_happening (d := d) hm)
  obtain ⟨e, hchecks, hanswer⟩ := Limiter.checks_of_goes hgoes
  rw [hreport, hanswer]
  exact ⟨e, answer.2, hchecks, rfl⟩

/-- What a command asks that is no check: it reads, resets and sets markers. -/
theorem calls_of_not_check {s : Service} {command : Command}
    (h : ∀ request, command ≠ .check request) :
    ∀ x ∈ (s.happening d command).exchanges,
      s.limiter.Asks s.now x.call ∧ x.call.isIncrement = false := by
  cases hm : s.limiter.conversation s.now command with
  | none =>
    rw [exchanges_of_no_conversation hm]
    exact List.forall_mem_nil _
  | some m =>
    -- what is asked depends on the exchanges alone, wherever they come from
    have hgoes := goes_happening (d := d) hm
    generalize (s.happening d command).exchanges = xs at hgoes ⊢
    intro x hx
    cases command with
    | check request => exact absurd rfl (h request)
    | reload | advance | setClock | purge | setOutage => cases hm
    | status request =>
      cases hm
      obtain ⟨_, hgoes, -⟩ := Interaction.goes_bind_done_iff.1 hgoes
      obtain ⟨key, hcall⟩ := Limiter.calls_of_readRules_goes hgoes x hx
      rw [hcall]
      exact ⟨.read key, rfl⟩
    | reset ruleId request =>
      cases hm
      obtain ⟨_, hgoes, -⟩ := Interaction.goes_bind_done_iff.1 hgoes
      obtain ⟨key, hcall⟩ := Limiter.calls_of_reset_goes hgoes x hx
      rw [hcall]
      exact ⟨.reset key, rfl⟩
    | resetFor ruleIds source =>
      cases hm
      obtain ⟨_, hgoes, -⟩ := Interaction.goes_bind_done_iff.1 hgoes
      obtain ⟨key, hcall⟩ := Limiter.calls_of_resetKeys_goes hgoes x hx
      rw [hcall]
      exact ⟨.reset key, rfl⟩
    | addOverride dimension value ttl =>
      cases hm
      obtain ⟨_, hgoes, -⟩ := Interaction.goes_bind_done_iff.1 hgoes
      rw [Limiter.calls_of_requestWithin_goes hgoes x hx]
      exact ⟨.setMarker dimension _ ttl, rfl⟩
    | removeOverride dimension value =>
      cases hm
      obtain ⟨_, hgoes, -⟩ := Interaction.goes_bind_done_iff.1 hgoes
      rw [Limiter.calls_of_requestWithin_goes hgoes x hx]
      exact ⟨.resetOverride dimension _, rfl⟩

/-- **Whatever happens, the limiter keeps to its keys.** -/
theorem happening_asks {s : Service} (hs : s.limiter.rules.Sound) (command : Command) :
    ∀ x ∈ (s.happening d command).exchanges, s.limiter.Asks s.now x.call := by
  by_cases hcheck : ∃ request, command = .check request
  · obtain ⟨request, rfl⟩ := hcheck
    obtain ⟨e, metrics, hchecks, -⟩ := checks_happening d s request
    exact hchecks.asks hs
  · rw [not_exists] at hcheck
    exact fun x hx => (calls_of_not_check hcheck x hx).1

/-- Over a history without a reload these are the keys of one limiter. -/
theorem asks_of_mem_chronicle {s : Service} {commands : List Command}
    (hreload : ∀ command ∈ commands, command.isReload = false) (hs : s.limiter.rules.Sound)
    {h : Happening} (hh : h ∈ s.chronicle d commands) :
    ∀ x ∈ h.exchanges, s.limiter.Asks h.before.now x.call := by
  obtain ⟨t, command, ht, rfl⟩ := exists_of_mem_chronicle hreload hh
  rw [← ht] at hs ⊢
  exact happening_asks hs command

theorem asks_of_mem_journal {s : Service} {commands : List Command}
    (hreload : ∀ command ∈ commands, command.isReload = false) (hs : s.limiter.rules.Sound) :
    ∀ j ∈ Happening.journal (s.chronicle d commands), s.limiter.Asks j.1 j.2.call := by
  intro j hj
  obtain ⟨h, hh, x, hx, rfl⟩ := Happening.mem_journal.1 hj
  exact asks_of_mem_chronicle hreload hs hh x hx

/-- A counter is touched once at a command that counts in it. -/
theorem happening_pairwise_key_ne {s : Service} (hs : s.limiter.rules.Sound) (command : Command) :
    (s.happening d command).exchanges.Pairwise
      fun x y => y.call.isIncrement = true → x.call.key ≠ y.call.key := by
  by_cases hcheck : ∃ request, command = .check request
  · obtain ⟨request, rfl⟩ := hcheck
    obtain ⟨e, metrics, hchecks, -⟩ := checks_happening d s request
    exact hchecks.pairwise_key_ne hs
  · rw [not_exists] at hcheck
    refine List.pairwise_of_forall_mem_list ?_
    intro x _ y hy hcounts
    rw [(calls_of_not_check hcheck y hy).2] at hcounts
    cases hcounts

/-- Requests are counted at checks only. -/
theorem eq_check_of_isIncrement {s : Service} {command : Command} {x : Exchange}
    (hx : x ∈ (s.happening d command).exchanges) (hi : x.call.isIncrement = true) :
    ∃ request, command = .check request := by
  by_contra hcheck
  rw [not_exists] at hcheck
  rw [(calls_of_not_check hcheck x hx).2] at hi
  cases hi

/-- Decisions are made at checks only. -/
theorem eq_check_of_decision {s : Service} {command : Command}
    {result : Except Error Decision} {metrics : List Metric}
    (h : (s.happening d command).report = .decision result metrics) :
    ∃ request, command = .check request := by
  cases hm : s.limiter.conversation s.now command with
  | none =>
    rw [happening, handleAmid_of_no_conversation hm] at h
    cases command with
    | check | status | reset | resetFor | addOverride | removeOverride => cases hm
    | reload rules defaults =>
      simp only [handle] at h
      split at h <;> cases h
    | advance | setClock | purge | setOutage => cases h
  | some m =>
    have hgoes := goes_happening (d := d) hm
    rw [h] at hgoes
    cases command with
    | check request => exact ⟨request, rfl⟩
    | reload | advance | setClock | purge | setOutage => cases hm
    | status | reset | resetFor | addOverride | removeOverride =>
      cases hm
      obtain ⟨answer, -, hreport⟩ := Interaction.goes_bind_done_iff.1 hgoes
      cases hreport

end Service

end Admission
