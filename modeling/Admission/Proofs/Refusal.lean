/-
When a rule refuses.

A check asks a rule's counter once, and nothing else of the check is about that counter.
So whether the rule refuses can be told before the check, by reading the counter: it does
if and only if the reading shows the limit (`Service.deniesBy_iff_of_counts`,
`Service.le_read_of_denies`). What will be read after any time is a law of one cell that
lasts (`Lasting`), either since the store was empty (`Limiter.Reaches.keeps`) or since some
service (`Service.keeps_after`).
-/
import Admission.Proofs.Contention
import Admission.Proofs.ShortCircuit

set_option autoImplicit false

namespace Admission

/-! ## What is heard -/

namespace Limiter

variable {l : Limiter} {rule : Rule} {value : String} {key : CounterKey} {now : Nat}
variable {request : Request} {x : Exchange} {xs : List Exchange} {s u : Store}

/-- What is heard of a rule is what observing it hears from the store that answers. -/
theorem Hears.run_observe {heard : Except Error Observation} (h : l.Hears rule key now x heard)
    (hreply : x.reply = .answered (u.answer now x.call).1) :
    (l.observe rule key now).run (Store.reply now) u = (heard, (u.answer now x.call).2) := by
  cases h with
  | fixed ha reply | sliding ha reply =>
    dsimp only at hreply
    rw [observe, ha, hreply]
    rfl

/-- **What is heard from an orderly store** is what reading the rule's counter foretells. -/
theorem Hears.counted {o : Observation} (hs : l.rules.Sound) (hnow : now < Word.max)
    (ho : u.Orderly l now) (hr : rule ∈ l.rules.rules)
    (h : l.Hears rule (CounterKey.forValue rule value (now / 1000)) now x (.ok o))
    (hreply : x.reply = .answered (u.answer now x.call).1) :
    l.Counted rule value now u o (u.answer now x.call).2 := by
  obtain ⟨o', s', hrun, hcounted⟩ := observe_of_orderly value hs hnow ho hr
  rw [h.run_observe hreply, Prod.mk.injEq, Except.ok.injEq] at hrun
  obtain ⟨rfl, rfl⟩ := hrun
  exact hcounted

/-- The rule that an allowance shows was asked, and passed. -/
theorem Evaluates.heard_of_passed {busiest : Option Measured} {rules : List Rule} {m : Measured}
    (h : l.Evaluates request now busiest rules xs (.passed m)) :
    busiest = some m ∨ m.rule ∈ rules ∧
      ∃ x ∈ xs, ∃ key, CounterKey.forRequest m.rule request (now / 1000) = some key ∧
        l.Hears m.rule key now x (.ok m.observation) ∧ m.observation.exceeded = false := by
  generalize he : Ending.passed m = e at h
  induction h with
  | nothing | failed | denied => cases he
  | passed busiest =>
    cases he
    exact .inl rfl
  | skipped _ _ ih =>
    rcases ih he with hbusiest | ⟨hr, hheard⟩
    · exact .inl hbusiest
    · exact .inr ⟨List.mem_cons_of_mem _ hr, hheard⟩
  | passes hkey hx ho _ ih =>
    rcases ih he with hbusiest | ⟨hr, x, hx, hheard⟩
    · rcases eq_or_eq_of_busier (Option.some.inj hbusiest) with hbusiest | rfl
      · exact .inl hbusiest
      · exact .inr ⟨List.mem_cons_self, _, List.mem_cons_self, _, hkey, hx, ho⟩
    · exact .inr ⟨List.mem_cons_of_mem _ hr, x, List.mem_cons_of_mem _ hx, hheard⟩

/-- **The rule that a check ends with was asked:** it denied if it was exceeded, and is
shown among those that passed if not. -/
theorem Checks.heard_of_applied {e : Ending} {m : Measured} (h : l.Checks request now xs e)
    (he : e = .passed m ∨ e = .denied m) :
    m.rule ∈ l.rules.resolve request ∧
      ∃ x ∈ xs, ∃ key, CounterKey.forRequest m.rule request (now / 1000) = some key ∧
        l.Hears m.rule key now x (.ok m.observation) ∧
          (m.observation.exceeded = true ↔ e = .denied m) := by
  rcases he with rfl | rfl
  · generalize he : Ending.passed m = e at h
    cases h with
    | disabled | whitelisted | noRules => cases he
    | asked _ _ _ hasked =>
      subst he
      rcases hasked.heard_of_passed with hnone | ⟨hr, x, hx, key, hkey, hheard, ho⟩
      · cases hnone
      · refine ⟨hr, x, List.mem_append_right _ hx, key, hkey, hheard, ?_⟩
        rw [ho]
        exact iff_of_false Bool.false_ne_true Ending.noConfusion
  · obtain ⟨hr, x, hx, key, hkey, hheard, ho⟩ := h.heard_of_denied
    exact ⟨hr, x, hx, key, hkey, hheard, iff_of_true ho rfl⟩

/-! ## Laws since the store was empty -/

theorem Reaches.serves {later : Nat} {js : List (Nat × Exchange)} (h : l.Reaches now s)
    (hserves : Store.Serves now s js later u) (hasks : ∀ j ∈ js, l.Asks j.1 j.2.call) :
    l.Reaches later u := by
  obtain ⟨start, journal, hstart, hjournal⟩ := h
  refine ⟨start, journal ++ js, hstart.append hserves, ?_⟩
  intro j hj
  rcases List.mem_append.1 hj with hj | hj
  · exact hjournal j hj
  · exact hasks j hj

/-- **A lasting law that an empty store meets** is met by every store the limiter leaves
behind, if the calls under the key keep it. -/
theorem Reaches.keeps {C : Nat → Option Entry → Prop} (hlasting : Lasting C) {text : String}
    (h : l.Reaches now s) (hnow : now < Word.max) (hnone : ∀ start, C start none)
    (hcalls : ∀ n call, l.Asks n call → call.key = text → ∀ u : Store, u.Distinct →
      n < Word.max → C n (u.find? text) → C n ((u.answer n call).2.find? text)) :
    C now (s.find? text) := by
  obtain ⟨start, journal, hserves, hjournal⟩ := h
  exact hserves.keeps hlasting Store.distinct_empty hnow
    (fun j hj _ => hcalls j.1 j.2.call (hjournal j hj)) (hnone start)

end Limiter

/-! ## A counter at a check -/

namespace Happening

/-- **Nothing was written under a key:** whatever call about it was answered has read. -/
def Unwritten (key : String) (hs : List Happening) : Prop :=
  ∀ h ∈ hs, ∀ x ∈ h.exchanges, x.IsAnswered → x.call.key = key → x.call = .read key

instance (key : String) (hs : List Happening) : Decidable (Unwritten key hs) :=
  inferInstanceAs (Decidable (∀ h ∈ hs, ∀ x ∈ h.exchanges, x.IsAnswered → x.call.key = key →
    x.call = .read key))

end Happening

namespace Service

variable {d : Disturbance} {s : Service} {command : Command} {request : Request} {rule : Rule}
variable {value : String} {x : Exchange}

/-- **A service that may have come about** without a reload: its rules could be made, its
limiter may have left its store behind, and time has not come to its end. -/
structure Reachable (s : Service) : Prop where
  sound : s.limiter.rules.Sound
  reaches : s.limiter.Reaches s.now s.backend.store
  now_lt : s.now < Word.max

namespace Reachable

theorem orderly (h : s.Reachable) : s.backend.store.Orderly s.limiter s.now :=
  h.reaches.orderly h.sound h.now_lt

/-- Whatever happens, it is such a service that is left. -/
theorem after (h : s.Reachable) (hd : d.OnlyOutages) {commands : List Command}
    (hreload : ∀ command ∈ commands, command.isReload = false)
    (hclock : s.backend.clock.Steady commands) : (s.after d commands).Reachable := by
  have hlimiter : (s.after d commands).limiter = s.limiter := limiter_after hreload
  refine ⟨?_, ?_, now_after_lt hd hclock⟩
  · rw [hlimiter]
    exact h.sound
  · rw [hlimiter]
    exact h.reaches.serves (chronicle_serves hd hclock) (asks_of_mem_journal hreload h.sound)

/-- A conversation takes no time and puts no rules in force. -/
theorem converses (h : s.Reachable) (hd : d.OnlyOutages) {m : Interaction Report}
    (hm : s.limiter.conversation s.now command = some m) :
    (s.handleAmid d command).2.Reachable := by
  have hreload : command.isReload = false := by
    cases command with
    | check | status | reset | resetFor | addOverride | removeOverride => rfl
    | reload | advance | setClock | purge | setOutage => cases hm
  refine h.after hd (List.forall_mem_singleton.2 hreload) ⟨h.now_lt, ?_, ?_⟩
  · rw [clock_after_of_conversation hm]
  · rw [clock_after_of_conversation hm]
    exact h.now_lt

theorem check (h : s.Reachable) (hd : d.OnlyOutages) (request : Request) :
    (s.handleAmid d (.check request)).2.Reachable := h.converses hd rfl

end Reachable

theorem reachable_start {l : Limiter} (hs : l.rules.Sound) {start : Nat} (hnow : start < Word.max) :
    (Service.start l start).Reachable :=
  ⟨hs, ⟨start, [], .nil, List.forall_mem_nil _⟩, hnow⟩

/-- **After a history** without a reload and without an outage. -/
theorem reachable_run {l : Limiter} (hs : l.rules.Sound) {start : Nat} {commands : List Command}
    (hreload : ∀ command ∈ commands, command.isReload = false)
    (houtage : ∀ command ∈ commands, command.setsOutage = false)
    (hclock : (Clock.mk start).Steady commands) :
    let s := ((Service.start l start).run commands).2
    s.limiter = l ∧ s.Reachable ∧ s.backend.outage = none := by
  have hrun : ((Service.start l start).run commands).2 =
      (Service.start l start).after .none commands :=
    congrArg Prod.snd (Service.run_eq_chronicle _ commands)
  have hd := Disturbance.onlyOutages_none
  dsimp only
  rw [hrun]
  exact ⟨limiter_after hreload, (reachable_start hs hclock.now_lt).after hd hreload hclock,
    outage_after rfl houtage⟩

/-- **In the middle of a history** without a reload the limiter is the one that it began
with, and what is still to come goes on from such a service. -/
theorem reachable_of_history {l : Limiter} (hs : l.rules.Sound) (hd : d.OnlyOutages) {start : Nat}
    {before rest : List Command} (hreload : ∀ command ∈ before ++ rest, command.isReload = false)
    (hclock : (Clock.mk start).Steady (before ++ rest)) :
    ((Service.start l start).after d before).limiter = l ∧
      ((Service.start l start).after d before).Reachable ∧
      (∀ command ∈ rest, command.isReload = false) ∧
      ((Service.start l start).after d before).backend.clock.Steady rest := by
  have hbefore : ∀ command ∈ before, command.isReload = false :=
    fun command hc => hreload command (List.mem_append_left _ hc)
  obtain ⟨hfirst, hsecond⟩ := steady_append (s := .start l start) hd hclock
  exact ⟨limiter_after hbefore, (reachable_start hs hfirst.now_lt).after hd hbefore hfirst,
    fun command hc => hreload command (List.mem_append_right _ hc), hsecond⟩

/-- A check takes no time and puts no rules in force. -/
theorem handleAmid_check (hd : d.OnlyOutages) (s : Service) (request : Request) :
    (s.handleAmid d (.check request)).2.limiter = s.limiter ∧
      (s.handleAmid d (.check request)).2.now = s.now :=
  ⟨limiter_handleAmid_of_not_reload rfl, congrArg Clock.now (clock_handleAmid hd s _)⟩

/-- **Around a check in a history** without a reload: what comes after it goes on at the
same time, with the same limiter and from such a service. -/
theorem reachable_around_check {l : Limiter} (hs : l.rules.Sound) (hd : d.OnlyOutages) {start : Nat}
    {before meanwhile : List Command}
    (hreload : ∀ command ∈ before ++ .check request :: meanwhile, command.isReload = false)
    (hclock : (Clock.mk start).Steady (before ++ .check request :: meanwhile)) :
    let s := (Service.start l start).after d before
    let s' := (s.handleAmid d (.check request)).2
    (s.limiter = l ∧ s.Reachable) ∧ (s'.limiter = l ∧ s'.now = s.now ∧ s'.Reachable) ∧
      (∀ command ∈ meanwhile, command.isReload = false) ∧ s'.backend.clock.Steady meanwhile := by
  intro s s'
  obtain ⟨hlimiter, hreachable, hrest, -, -, hsteady⟩ := reachable_of_history hs hd hreload hclock
  obtain ⟨hlimiter', hsame⟩ := handleAmid_check hd s request
  refine ⟨⟨hlimiter, hreachable⟩, ⟨hlimiter'.trans hlimiter, hsame, hreachable.check hd request⟩,
    (List.forall_mem_cons.1 hrest).2, ?_⟩
  rw [clock_handleAmid hd]
  exact hsteady

/-- **Around an answered exchange of a command:** a store that the limiter may have left
behind answers it, and the store after the command goes on from there. -/
theorem exists_meeting (hd : d.OnlyOutages)
    (hx : x ∈ (s.happening d command).exchanges) (hanswered : x.IsAnswered) :
    ∃ xs ys u, (s.happening d command).exchanges = xs ++ x :: ys ∧
      Store.Serves s.now s.backend.store (xs.map (s.now, ·)) s.now u ∧
      x.reply = .answered (u.answer s.now x.call).1 ∧
      Store.Serves s.now (u.answer s.now x.call).2 (ys.map (s.now, ·)) s.now
        (s.handleAmid d command).2.backend.store := by
  obtain ⟨m, hm⟩ := exists_conversation_of_mem hx
  obtain ⟨xs, ys, hsplit⟩ := List.append_of_mem hx
  have hserves := Backend.serves_run_answerAmid hd m s.backend
  rw [← exchanges_of_conversation hm, hsplit, List.map_append, List.map_cons,
    Backend.clock_run_answerAmid hd] at hserves
  obtain ⟨u, hbefore, hreply, hbehind⟩ := hserves.split hanswered
  rw [handleAmid_of_conversation hm]
  exact ⟨xs, ys, u, hsplit, hbefore, hreply, hbehind⟩

/-- **A command that counts in a counter** has no other call about it. -/
theorem key_ne_of_counts (hs : s.limiter.rules.Sound) {xs ys : List Exchange}
    (hsplit : (s.happening d command).exchanges = xs ++ x :: ys)
    (hcounts : x.call.isIncrement = true) : ∀ y ∈ xs ++ ys, y.call.key ≠ x.call.key := by
  have hx : x ∈ (s.happening d command).exchanges := by
    rw [hsplit]
    exact List.mem_append_right _ List.mem_cons_self
  have hfirst := happening_pairwise_key_ne (d := d) hs command
  rw [hsplit, List.pairwise_append, List.pairwise_cons] at hfirst
  intro y hy
  rcases List.mem_append.1 hy with hy | hy
  · exact hfirst.2.2 y hy x List.mem_cons_self hcounts
  · -- what is behind it are other counters or overrides
    obtain ⟨request, rfl⟩ := eq_check_of_isIncrement hx hcounts
    obtain ⟨e, metrics, hchecks, -⟩ := checks_happening d s request
    have hy' : y ∈ (s.happening d (.check request)).exchanges := by
      rw [hsplit]
      exact List.mem_append_right _ (List.mem_cons_of_mem _ hy)
    rcases hchecks.isIncrement_or_looks hs y hy' with hincrement | ⟨dimension, value, hlooks⟩
    · exact (hfirst.2.1.1 y hy hincrement).symm
    · rw [hlooks]
      exact ((happening_asks hs _ x hx).key_ne_overrideKey hcounts dimension value).symm

/-- **A counter is met once at a command:** until it is counted in it fades at most, and so
it does afterwards. -/
theorem exists_meeting_fades (hs : s.limiter.rules.Sound) (hdistinct : s.backend.store.Distinct)
    (hd : d.OnlyOutages) (hx : x ∈ (s.happening d command).exchanges)
    (hcounts : x.call.isIncrement = true) (hanswered : x.IsAnswered) :
    ∃ (xs : List Exchange) (u : Store), (∀ y ∈ xs, y ∈ (s.happening d command).exchanges) ∧
      Store.Serves s.now s.backend.store (xs.map (s.now, ·)) s.now u ∧
      Fades s.now (s.backend.store.find? x.call.key) (u.find? x.call.key) ∧
      x.reply = .answered (u.answer s.now x.call).1 ∧
      Fades s.now ((u.answer s.now x.call).2.find? x.call.key)
        ((s.handleAmid d command).2.backend.store.find? x.call.key) := by
  obtain ⟨xs, ys, u, hsplit, hbefore, hreply, hbehind⟩ := exists_meeting hd hx hanswered
  -- no other call is about the counter, so all they can do is let it fade
  have hne := key_ne_of_counts hs hsplit hcounts
  refine ⟨xs, u, ?_, hbefore, hbefore.fades hdistinct ?_, hreply,
    hbehind.fades ((hbefore.distinct hdistinct).answer _ _) ?_⟩
  · intro y hy
    rw [hsplit]
    exact List.mem_append_left _ hy
  · exact List.forall_mem_map.2 fun y hy => .inl (hne y (List.mem_append_left _ hy))
  · exact List.forall_mem_map.2 fun y hy => .inl (hne y (List.mem_append_right _ hy))

/-- The same in a service that may have come about, where the store that answers may too. -/
theorem exists_meeting_of_counts (h : s.Reachable) (hd : d.OnlyOutages)
    (hx : x ∈ (s.happening d command).exchanges) (hcounts : x.call.isIncrement = true)
    (hanswered : x.IsAnswered) :
    ∃ u, s.limiter.Reaches s.now u ∧
      Fades s.now (s.backend.store.find? x.call.key) (u.find? x.call.key) ∧
      x.reply = .answered (u.answer s.now x.call).1 ∧
      Fades s.now ((u.answer s.now x.call).2.find? x.call.key)
        ((s.handleAmid d command).2.backend.store.find? x.call.key) := by
  obtain ⟨xs, u, hmem, hserves, hmeets⟩ :=
    exists_meeting_fades h.sound h.orderly.distinct hd hx hcounts hanswered
  refine ⟨u, h.reaches.serves hserves ?_, hmeets⟩
  exact List.forall_mem_map.2 fun y hy => happening_asks h.sound command y (hmem y hy)

/-! ## Refusing -/

/-- What is heard of a rule is what reading its counter before the check foretells. -/
theorem exceeded_iff_of_hears (h : s.Reachable) (hd : d.OnlyOutages)
    (hr : rule ∈ s.limiter.rules.rules) (hx : x ∈ (s.happening d command).exchanges)
    {o : Observation}
    (hheard : s.limiter.Hears rule (CounterKey.forValue rule value (s.now / 1000)) s.now x (.ok o)) :
    o.exceeded = true ↔ rule.limit ≤
      (s.backend.store.read s.now (s.limiter.keyOf rule value (s.now / 1000))).count := by
  have hkey : x.call.key = s.limiter.keyOf rule value (s.now / 1000) := hheard.call_key
  obtain ⟨u, hreached, hfades, hreply, -⟩ := exists_meeting_of_counts h hd hx
    (Exchange.countsUnder_iff.1 hheard.countsUnder).1 hheard.isAnswered
  rw [hkey] at hfades
  have hcounted :=
    hheard.counted h.sound h.now_lt (hreached.orderly h.sound h.now_lt) hr hreply
  rw [hcounted.exceeded_iff, Store.read, Store.read, Store.live?_of_fades hfades]

/-- **A check that asks a rule is refused by it** if and only if reading the rule's counter
before the check shows the limit. -/
theorem deniesBy_iff_of_counts (h : s.Reachable) (hd : d.OnlyOutages)
    (hr : rule ∈ s.limiter.rules.rules) (hx : x ∈ (s.happening d command).exchanges)
    (hcounts : x.countsUnder (s.limiter.keyOf rule value (s.now / 1000)) = true)
    (hanswered : x.IsAnswered) :
    (s.happening d command).report.deniesBy rule.id = true ↔ rule.limit ≤
      (s.backend.store.read s.now (s.limiter.keyOf rule value (s.now / 1000))).count := by
  rw [Exchange.countsUnder_iff] at hcounts
  obtain ⟨-, heard, hheard, hdenies⟩ := hears_of_counts h.sound hr hx hcounts.1 hcounts.2
  obtain ⟨o, rfl⟩ := hheard.exists_ok hanswered
  rw [hdenies o rfl]
  exact exceeded_iff_of_hears h hd hr hx hheard

/-- **A refusal shows in the rule's counter** before the check. -/
theorem le_read_of_denies (h : s.Reachable) (hd : d.OnlyOutages)
    (hr : rule ∈ s.limiter.rules.rules)
    (hconcerns : (s.happening d command).concerns rule value = true)
    (hdenies : (s.happening d command).report.deniesBy rule.id = true) :
    rule.limit ≤
      (s.backend.store.read s.now (s.limiter.keyOf rule value (s.now / 1000))).count := by
  obtain ⟨heardValue, hheardOf, x, hx, o, hheard, ho⟩ := exists_hears_of_denies h.sound hr hdenies
  have hsame : heardValue = value := Happening.eq_of_concerns hheardOf hconcerns
  rw [hsame] at hheard
  exact (exceeded_iff_of_hears h hd hr hx hheard).1 ho

end Service

/-! ## Decisions -/

/-- **A decision that shows a rule** as it was observed, at a time in seconds. -/
structure Decision.Shows (dec : Decision) (rule : Rule) (o : Observation) (seconds : Nat) :
    Prop where
  applied : dec.appliedRule = some rule.id
  allowed : dec.allowed = !o.exceeded
  count : dec.currentCount = o.count
  resetAt : dec.resetAt = seconds + ceilSeconds o.resetAfter
  retryAfter : dec.retryAfterSeconds =
    if o.exceeded then some (max (ceilSeconds o.resetAfter) 1) else none

/-- A denial shows a rule that was exceeded. -/
theorem Decision.Shows.exceeded {dec : Decision} {rule : Rule} {o : Observation} {seconds : Nat}
    (h : dec.Shows rule o seconds) (hdenied : dec.allowed = false) : o.exceeded = true := by
  have hallowed := h.allowed
  rw [hdenied] at hallowed
  simpa using hallowed

/-- What an ending tells of a rule: that it passed or that it was exceeded. -/
theorem Ending.exists_shows {failOpen : Bool} {space : String} {request : Request}
    {seconds : Nat} {e : Ending} {dec : Decision}
    (h : e.result failOpen space request seconds = .ok dec)
    (hrule : dec.hasRule = true ∨ dec.allowed = false) :
    ∃ m, (e = .passed m ∨ e = .denied m) ∧
      ((m.observation.exceeded = true ↔ e = .denied m) → dec.Shows m.rule m.observation seconds) := by
  cases e with
  | disabled | whitelisted | noRules | nothingCounted =>
    cases h
    rcases hrule with hrule | hrule <;> cases hrule
  | failed rule error =>
    cases failOpen with
    | false => cases h
    | true =>
      cases h
      rcases hrule with hrule | hrule <;> cases hrule
  | passed m =>
    cases h
    refine ⟨m, .inl rfl, ?_⟩
    intro hexceeded
    have ho : m.observation.exceeded = false := by
      rw [Bool.eq_false_iff, Ne, hexceeded]
      exact Ending.noConfusion
    exact ⟨rfl, by rw [ho]; rfl, rfl, rfl, by rw [ho]; rfl⟩
  | denied m =>
    cases h
    refine ⟨m, .inr rfl, ?_⟩
    intro hexceeded
    have ho : m.observation.exceeded = true := hexceeded.2 rfl
    exact ⟨rfl, by rw [ho]; rfl, rfl, rfl, by rw [ho]; rfl⟩

/-- **A decision that shows a rule was heard** from it. -/
theorem Service.exists_hears_of_decision {d : Disturbance} {s : Service} {request : Request}
    {dec : Decision} {metrics : List Metric}
    (hreport : (s.happening d (.check request)).report = .decision (.ok dec) metrics)
    (hrule : dec.hasRule = true ∨ dec.allowed = false) :
    ∃ rule ∈ s.limiter.rules.rules, ∃ value o,
      (s.happening d (.check request)).concerns rule value = true ∧
        dec.Shows rule o (s.now / 1000) ∧
        ∃ x ∈ (s.happening d (.check request)).exchanges,
          s.limiter.Hears rule (CounterKey.forValue rule value (s.now / 1000)) s.now x (.ok o) := by
  obtain ⟨e, _, hchecks, hresult⟩ := checks_happening d s request
  rw [hreport, Report.decision.injEq] at hresult
  obtain ⟨m, he, hshows⟩ := Ending.exists_shows hresult.1.symm hrule
  obtain ⟨hr, x, hx, key, hkey, hheard, hexceeded⟩ := hchecks.heard_of_applied he
  obtain ⟨value, hvalue, rfl⟩ := Limiter.eq_forValue_of_forRequest hkey
  exact ⟨m.rule, RuleSet.mem_of_mem_resolve hr, value, m.observation,
    Happening.concerns_iff.2 ⟨request, rfl, hr, hvalue⟩, hshows hexceeded, x, hx, hheard⟩

end Admission
