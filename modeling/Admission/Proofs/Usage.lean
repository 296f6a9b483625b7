/-
Usage foretells a check.

Asking how much of each limit is used and checking a request are two conversations
that share no code below the key of a counter. In an orderly store they agree: the
usage is what the counters show (`Limiter.usage`), a check goes down the same list
until it meets a full entry, and leaves the list as `RuleStatus.afterCheck` says
(`Limiter.askRules_of_orderly`). Every store that a limiter has worked on is orderly,
so this holds after any history (`usage_foretells_check`).
-/
import Admission.Proofs.Orderly

set_option autoImplicit false

namespace Admission

namespace Limiter

/-! ## The entries of a usage -/

namespace RuleStatus

/-- Whether a limit is used up. -/
def isFull (e : RuleStatus) : Bool := decide (e.limit ≤ e.current)

/-- An entry with one request more. -/
def counted (e : RuleStatus) : RuleStatus :=
  { e with current := e.current + 1, remaining := e.limit - (e.current + 1) }

/-- **What a check makes of a usage:** every entry counts the request up to the first
full one, which counts it only if its window is a fixed one, and those behind it are not
asked. -/
def afterCheck : List RuleStatus → List RuleStatus
  | [] => []
  | e :: rest =>
    if e.isFull then (if e.algorithm = .fixedWindow then e.counted else e) :: rest
    else e.counted :: afterCheck rest

end RuleStatus

/-- **The usage that a store shows** of some rules for a request. -/
def usage (l : Limiter) (s : Store) (request : Request) (now : Nat) (rules : List Rule) :
    List RuleStatus :=
  rules.filterMap fun rule =>
    (CounterKey.forRequest rule request (now / 1000)).map fun key =>
      statusOf rule (key.render l.settings.keySpace)
        (s.read now (key.render l.settings.keySpace))

variable {l : Limiter} {request : Request} {now : Nat} {s s' : Store} {rules : List Rule}

/-- Asking for the usage shows it and leaves the store as it is. -/
theorem run_readRules (l : Limiter) (request : Request) (now : Nat) (s : Store)
    (rules : List Rule) :
    (l.readRules request (now / 1000) rules).run (Store.reply now) s =
      (.ok (l.usage s request now rules), s) := by
  induction rules with
  | nil => rfl
  | cons rule rest ih =>
    rw [readRules, usage, List.filterMap_cons]
    cases hkey : CounterKey.forRequest rule request (now / 1000) with
    | none => exact ih
    | some key =>
      dsimp only
      rw [Interaction.run_ask]
      change ((l.readRules request (now / 1000) rest).bind _).run (Store.reply now) s = _
      rw [Interaction.run_bind, ih]
      rfl

theorem run_status (l : Limiter) (request : Request) (now : Nat) (s : Store) :
    (l.status request now).run (Store.reply now) s =
      (.ok (l.usage s request now (l.rules.resolve request)), s) :=
  run_readRules l request now s (l.rules.resolve request)

/-- The entry of a rule shows the number of its reading, and nothing else of it. -/
theorem statusOf_congr {rule : Rule} {key : String} {a b : Snapshot} (h : a.count = b.count) :
    statusOf rule key a = statusOf rule key b := by
  rw [statusOf, statusOf, h]

theorem statusOf_succ {rule : Rule} {key : String} {a b : Snapshot} (h : a.count = b.count + 1) :
    statusOf rule key a = (statusOf rule key b).counted := by
  rw [statusOf, h]
  rfl

/-- The usage depends on what is alive under the keys of the rules alone. -/
theorem usage_congr (h : ∀ rule ∈ rules, ∀ value,
      s'.live? now (l.keyOf rule value (now / 1000)) = s.live? now (l.keyOf rule value (now / 1000))) :
    l.usage s' request now rules = l.usage s request now rules := by
  refine List.filterMap_congr ?_
  intro rule hr
  cases hkey : CounterKey.forRequest rule request (now / 1000) with
  | none => rfl
  | some key =>
    obtain ⟨value, -, rfl⟩ := eq_forValue_of_forRequest hkey
    have hlive := h rule hr value
    rw [keyOf] at hlive
    rw [Option.map_some, Option.map_some, Store.read, Store.read, hlive]

/-! ## Checking against the usage -/

/-- **How an evaluation ends, told from a usage:** the first full entry denies, and
without one every rule passes. -/
def Foretells (entries : List RuleStatus) (e : Ending) : Prop :=
  match entries.find? RuleStatus.isFull with
  | some full => ∃ m, e = .denied m ∧ m.rule.id = full.ruleId
  | none => e.Passes

theorem foretells_cons_of_full {entry : RuleStatus} (rest : List RuleStatus) {m : Measured}
    (hfull : entry.isFull = true) (hid : m.rule.id = entry.ruleId) :
    Foretells (entry :: rest) (.denied m) := by
  rw [Foretells, List.find?_cons_of_pos hfull]
  exact ⟨m, rfl, hid⟩

theorem foretells_cons_of_not_full {entry : RuleStatus} {rest : List RuleStatus} {e : Ending}
    (hfull : entry.isFull = false) (h : Foretells rest e) : Foretells (entry :: rest) e := by
  rw [Foretells, List.find?_cons_of_neg (by rw [hfull]; exact Bool.false_ne_true)]
  exact h

/-- A rule's counters are not those of a rule with another id. -/
theorem keyOf_ne {r r' : Rule} (h : r.id ≠ r'.id) (value value' : String) (seconds : Nat) :
    l.keyOf r value seconds ≠ l.keyOf r' value' seconds :=
  fun hkey => h (congrArg CounterKey.ruleId (CounterKey.render_injective hkey))

/-- **An evaluation that goes as foretold:** it ends as the usage before it tells, the
usage after it is what a check makes of that, and what is alive under the keys of other
rules stays so. -/
structure Foretold (l : Limiter) (request : Request) (now : Nat) (rules : List Rule) (s : Store)
    (e : Ending) (s' : Store) : Prop where
  ends : Foretells (l.usage s request now rules) e
  after : l.usage s' request now rules = RuleStatus.afterCheck (l.usage s request now rules)
  frame : ∀ other, (∀ rule ∈ rules, ∀ value, other ≠ l.keyOf rule value (now / 1000)) →
    s'.live? now other = s.live? now other

section Rules

variable {rule : Rule} {rest : List Rule} {value : String} {e : Ending} {o : Observation}
variable {s₁ : Store}

theorem usage_cons_of_none (hkey : CounterKey.forRequest rule request (now / 1000) = none)
    (t : Store) : l.usage t request now (rule :: rest) = l.usage t request now rest := by
  rw [usage, List.filterMap_cons, hkey]
  rfl

theorem usage_cons_of_some (hkey : CounterKey.forRequest rule request (now / 1000) =
      some (CounterKey.forValue rule value (now / 1000))) (t : Store) :
    l.usage t request now (rule :: rest) =
      statusOf rule (l.keyOf rule value (now / 1000))
        (t.read now (l.keyOf rule value (now / 1000))) :: l.usage t request now rest := by
  rw [usage, List.filterMap_cons, hkey]
  rfl

/-- The counters of the rules behind are others than that of the rule in front. -/
theorem keyOf_ne_of_notMem (hid : rule.id ∉ rest.map Rule.id) {r : Rule} (hr : r ∈ rest)
    (value value' : String) (seconds : Nat) :
    l.keyOf rule value seconds ≠ l.keyOf r value' seconds := by
  refine keyOf_ne ?_ value value' seconds
  intro hsame
  exact hid (hsame ▸ List.mem_map_of_mem hr)

/-- Counting for a rule does not show in the entries behind it. -/
theorem Counted.usage_eq (h : l.Counted rule value now s o s₁) (hid : rule.id ∉ rest.map Rule.id) :
    l.usage s₁ request now rest = l.usage s request now rest := by
  refine usage_congr ?_
  intro r hr v
  exact h.frame _ (keyOf_ne_of_notMem hid hr value v (now / 1000)).symm

theorem Counted.isFull_eq (h : l.Counted rule value now s o s₁) :
    (statusOf rule (l.keyOf rule value (now / 1000))
      (s.read now (l.keyOf rule value (now / 1000)))).isFull = o.exceeded := by
  rw [Bool.eq_iff_iff, h.exceeded_iff]
  exact decide_eq_true_iff

/-- A rule without a value for the request is neither shown nor asked. -/
theorem Foretold.skipped (h : l.Foretold request now rest s e s')
    (hkey : CounterKey.forRequest rule request (now / 1000) = none) :
    l.Foretold request now (rule :: rest) s e s' := by
  refine ⟨?_, ?_, ?_⟩
  · rw [usage_cons_of_none hkey]
    exact h.ends
  · rw [usage_cons_of_none hkey, usage_cons_of_none hkey]
    exact h.after
  · exact fun other hother => h.frame other fun r hr => hother r (List.mem_cons_of_mem _ hr)

/-- A rule that is exceeded ends the evaluation: its entry is the first full one. -/
theorem Foretold.denied (h : l.Counted rule value now s o s') (ho : o.exceeded = true)
    (hkey : CounterKey.forRequest rule request (now / 1000) =
      some (CounterKey.forValue rule value (now / 1000)))
    (hid : rule.id ∉ rest.map Rule.id) :
    l.Foretold request now (rule :: rest) s (.denied ⟨rule, o⟩) s' := by
  have hfull := h.isFull_eq
  rw [ho] at hfull
  refine ⟨?_, ?_, ?_⟩
  · rw [usage_cons_of_some hkey]
    exact foretells_cons_of_full _ hfull rfl
  · have hcount := h.count
    have halgorithm : (statusOf rule (l.keyOf rule value (now / 1000))
        (s.read now (l.keyOf rule value (now / 1000)))).algorithm = rule.algorithm := rfl
    rw [usage_cons_of_some hkey, usage_cons_of_some hkey, h.usage_eq hid, RuleStatus.afterCheck,
      if_pos hfull, halgorithm]
    -- a full sliding window does not record the attempt, a fixed one counts it
    cases ha : rule.algorithm with
    | slidingWindow =>
      rw [if_pos ⟨ho, ha⟩, Nat.add_zero] at hcount
      rw [if_neg (by decide), statusOf_congr hcount]
    | fixedWindow =>
      rw [if_neg (by simp [ha])] at hcount
      rw [if_pos rfl, statusOf_succ hcount]
  · exact fun other hother => h.frame other (hother rule List.mem_cons_self value)

/-- A rule that passed counts the request, and the evaluation goes on to the rules behind
it. -/
theorem Foretold.passed (h : l.Counted rule value now s o s₁) (ho : o.exceeded = false)
    (hkey : CounterKey.forRequest rule request (now / 1000) =
      some (CounterKey.forValue rule value (now / 1000)))
    (hid : rule.id ∉ rest.map Rule.id) (hrest : l.Foretold request now rest s₁ e s') :
    l.Foretold request now (rule :: rest) s e s' := by
  have hfull := h.isFull_eq
  rw [ho] at hfull
  obtain ⟨hends, hafter, hframe⟩ := hrest
  rw [h.usage_eq hid] at hends hafter
  refine ⟨?_, ?_, ?_⟩
  · rw [usage_cons_of_some hkey]
    exact foretells_cons_of_not_full hfull hends
  · have hcount := h.count
    rw [if_neg (by rw [ho]; exact fun hboth => Bool.false_ne_true hboth.1)] at hcount
    -- the rules behind do not touch the counter
    have hlive := hframe (l.keyOf rule value (now / 1000))
      fun r hr v => keyOf_ne_of_notMem hid hr value v (now / 1000)
    rw [usage_cons_of_some hkey, usage_cons_of_some hkey, hafter, RuleStatus.afterCheck,
      if_neg (by rw [hfull]; exact Bool.false_ne_true), ← statusOf_succ hcount, Store.read, hlive,
      ← Store.read]
  · intro other hother
    rw [hframe other fun r hr => hother r (List.mem_cons_of_mem _ hr)]
    exact h.frame other (hother rule List.mem_cons_self value)

end Rules

/-- **An evaluation goes as the usage foretells.** -/
theorem askRules_of_orderly (hs : l.rules.Sound) (hnow : now < Word.max)
    (busiest : Option Measured) (ho : s.Orderly l now)
    (hrules : ∀ rule ∈ rules, rule ∈ l.rules.rules) (hids : (rules.map Rule.id).Nodup) :
    l.Foretold request now rules s
      ((l.askRules request now busiest rules).run (Store.reply now) s).1
      ((l.askRules request now busiest rules).run (Store.reply now) s).2 := by
  induction rules generalizing busiest s with
  | nil =>
    cases busiest with
    | none => exact ⟨trivial, rfl, fun _ _ => rfl⟩
    | some busiest => exact ⟨trivial, rfl, fun _ _ => rfl⟩
  | cons rule rest ih =>
    rw [List.forall_mem_cons] at hrules
    rw [List.map_cons, List.nodup_cons] at hids
    cases hkey : CounterKey.forRequest rule request (now / 1000) with
    | none =>
      have hask : l.askRules request now busiest (rule :: rest) =
          l.askRules request now busiest rest := by
        rw [askRules, hkey]
      rw [hask]
      exact (ih busiest ho hrules.2 hids.2).skipped hkey
    | some key =>
      obtain ⟨value, -, rfl⟩ := eq_forValue_of_forRequest hkey
      obtain ⟨o, s₁, hrun, hcounted⟩ := observe_of_orderly value hs hnow ho hrules.1
      have hask : (l.askRules request now busiest (rule :: rest)).run (Store.reply now) s =
          (if o.exceeded then (.denied ⟨rule, o⟩, s₁)
          else (l.askRules request now
            (some (busiest.elim ⟨rule, o⟩ (·.busier ⟨rule, o⟩))) rest).run (Store.reply now) s₁) := by
        rw [askRules, hkey]
        dsimp only
        rw [Interaction.run_bind, hrun]
        dsimp only
        split
        · rfl
        · rfl
      rw [hask]
      cases hexceeded : o.exceeded with
      | true => exact .denied hcounted hexceeded hkey hids.1
      | false =>
        have hrest := ih (some (busiest.elim ⟨rule, o⟩ (·.busier ⟨rule, o⟩))) hcounted.orderly
          hrules.2 hids.2
        exact .passed hcounted hexceeded hkey hids.1 hrest

/-- **The evaluation of a request** that limiting applies to goes as the usage
foretells. -/
theorem evaluate_of_orderly (hs : l.rules.Sound) (hnow : now < Word.max) (ho : s.Orderly l now)
    (henabled : l.settings.enabled = true)
    (hlets : ((l.whitelist.lets l.settings.keySpace l.settings.storeTimeout request).run
      (Store.reply now) s).1 = false) :
    Foretells (l.usage s request now (l.rules.resolve request))
        ((l.evaluate request now).run (Store.reply now) s).1 ∧
      l.usage ((l.evaluate request now).run (Store.reply now) s).2 request now
          (l.rules.resolve request) =
        RuleStatus.afterCheck (l.usage s request now (l.rules.resolve request)) := by
  cases hresolve : l.rules.resolve request with
  | nil =>
    have hrun : (l.evaluate request now).run (Store.reply now) s = (.noRules, s) := by
      rw [evaluate, henabled, Bool.not_true, if_neg Bool.false_ne_true, Interaction.run_bind,
        hlets, Whitelist.run_lets, if_neg Bool.false_ne_true, hresolve]
      rfl
    rw [hrun]
    exact ⟨trivial, rfl⟩
  | cons rule rest =>
    have hrun : (l.evaluate request now).run (Store.reply now) s =
        (l.askRules request now none (rule :: rest)).run (Store.reply now) s := by
      rw [evaluate, henabled, Bool.not_true, if_neg Bool.false_ne_true, Interaction.run_bind,
        hlets, Whitelist.run_lets, if_neg Bool.false_ne_true, hresolve]
    have hrules : ∀ r ∈ rule :: rest, r ∈ l.rules.rules := by
      rw [← hresolve]
      exact fun r hr => RuleSet.mem_of_mem_resolve hr
    have hids : ((rule :: rest).map Rule.id).Nodup := hresolve ▸ hs.ids_resolve request
    have hforetold : l.Foretold request now (rule :: rest) s _ _ :=
      askRules_of_orderly hs hnow none ho hrules hids
    rw [hrun]
    exact ⟨hforetold.ends, hforetold.after⟩

/-- What a foretold ending is told as. -/
theorem result_of_foretells {entries : List RuleStatus} {e : Ending} (h : Foretells entries e)
    (failOpen : Bool) (space : String) (seconds : Nat) :
    ∃ d, e.result failOpen space request seconds = .ok d ∧
      (d.allowed = false ↔ ∃ entry ∈ entries, entry.limit ≤ entry.current) ∧
      (d.allowed = false →
        d.appliedRule = (entries.find? RuleStatus.isFull).map RuleStatus.ruleId) := by
  unfold Foretells at h
  split at h
  · rename_i full hfind
    obtain ⟨m, rfl, hid⟩ := h
    refine ⟨_, rfl, iff_of_true rfl ?_, ?_⟩
    · have hfull := List.find?_some hfind
      exact ⟨full, List.mem_of_find?_eq_some hfind, of_decide_eq_true hfull⟩
    · intro _
      rw [hfind, Option.map_some, ← hid]
      rfl
  · rename_i hfind
    have hnone : ¬ ∃ entry ∈ entries, entry.limit ≤ entry.current := by
      rintro ⟨entry, hentry, hfull⟩
      exact List.find?_eq_none.1 hfind entry hentry (decide_eq_true hfull)
    cases e with
    | noRules | nothingCounted | passed =>
      refine ⟨_, rfl, iff_of_false ?_ hnone, ?_⟩
      · exact fun hallowed => Bool.false_ne_true hallowed.symm
      · exact fun hallowed => absurd hallowed.symm Bool.false_ne_true
    | disabled | whitelisted | denied | failed => cases h

end Limiter

/-! ## After any history -/

namespace Service

variable {s : Service} {request : Request}

theorem handle_status (h : s.backend.outage = none) (request : Request) :
    (s.handle (.status request)).1 = .usage (.ok (s.limiter.usage s.backend.store request s.now
        (s.limiter.rules.resolve request))) ∧
      (s.handle (.status request)).2.backend.store = s.backend.store := by
  obtain ⟨hvalue, hstore, -⟩ := converse_of_no_outage h (s.limiter.status request s.now)
  rw [Limiter.run_status] at hvalue hstore
  exact ⟨congrArg Report.usage hvalue, hstore⟩

/-- A check after which the usage is asked for. -/
theorem handle_check_status (h : s.backend.outage = none) (hs : s.limiter.rules.Sound)
    (hnow : s.now < Word.max) (ho : s.backend.store.Orderly s.limiter s.now)
    (henabled : s.limiter.settings.enabled = true)
    (hlets : (s.converse (s.limiter.whitelist.lets s.limiter.settings.keySpace
      s.limiter.settings.storeTimeout request)).1 = false) :
    let entries := s.limiter.usage s.backend.store request s.now (s.limiter.rules.resolve request)
    (∃ e metrics, Limiter.Foretells entries e ∧ (s.handle (.check request)).1 = .decision
        (e.result s.limiter.settings.failOpen s.limiter.settings.keySpace request (s.now / 1000))
        metrics) ∧
      ((s.handle (.check request)).2.handle (.status request)).1 =
        .usage (.ok (Limiter.RuleStatus.afterCheck entries)) := by
  intro entries
  rw [(converse_of_no_outage h _).1] at hlets
  obtain ⟨hends, hafter⟩ := Limiter.evaluate_of_orderly hs hnow ho henabled hlets
  have hrun : (s.limiter.check request s.now).run (Store.reply s.now) s.backend.store =
      let evaluated :=
        (s.limiter.evaluate request s.now).run (Store.reply s.now) s.backend.store
      ((evaluated.1.result s.limiter.settings.failOpen s.limiter.settings.keySpace request
          (s.now / 1000), evaluated.1.metrics s.limiter.settings.failOpen), evaluated.2) := by
    rw [Limiter.check, Interaction.run_bind]
    rfl
  obtain ⟨hvalue, hstore, houtage, hsame, hlimiter⟩ :=
    converse_of_no_outage h (s.limiter.check request s.now)
  rw [hrun] at hvalue hstore
  have hreport : (s.handle (.check request)).1 = .decision
      (s.converse (s.limiter.check request s.now)).1.1
      (s.converse (s.limiter.check request s.now)).1.2 := rfl
  rw [hvalue] at hreport
  refine ⟨⟨_, _, hends, hreport⟩, ?_⟩
  have hstatus := (handle_status (s := (s.converse (s.limiter.check request s.now)).2)
    houtage request).1
  rw [hlimiter, hsame, hstore] at hstatus
  exact hstatus.trans (congrArg (fun entries => Report.usage (.ok entries)) hafter)

end Service

/-- **Usage foretells a check.** A limiter that is switched on, with rules that could be
made, has served any commands but reloads, over a clock that never goes backward and a
store that does not fail. Let a request come that is not whitelisted.

Asking for its usage changes nothing that is stored. A check at the same time denies
the request if and only if some entry of the usage is full, by the rule of the first
such entry; and asking again right after it shows the same entries, with the request
counted in those before that one, in that one if its window is a fixed one, and in no
entry behind it. -/
theorem usage_foretells_check {rules : List Rule} {defaults : DefaultLimits} {set : RuleSet}
    (hbuild : RuleSet.build rules defaults = .ok set) {settings : LimiterSettings}
    (henabled : settings.enabled = true) (whitelist : Whitelist) {start : Nat}
    {commands : List Command} (hreload : ∀ command ∈ commands, command.isReload = false)
    (houtage : ∀ command ∈ commands, command.setsOutage = false)
    (hclock : (Clock.mk start).Steady commands) (request : Request) :
    let s := ((Service.start ⟨settings, set, whitelist⟩ start).run commands).2
    (s.converse (whitelist.lets settings.keySpace settings.storeTimeout request)).1 = false →
    ∃ entries d metrics,
      (s.handle (.status request)).1 = .usage (.ok entries) ∧
      (s.handle (.status request)).2.backend.store = s.backend.store ∧
      (s.handle (.check request)).1 = .decision (.ok d) metrics ∧
      (d.allowed = false ↔ ∃ entry ∈ entries, entry.limit ≤ entry.current) ∧
      (d.allowed = false → d.appliedRule =
        (entries.find? fun entry => entry.isFull).map Limiter.RuleStatus.ruleId) ∧
      ((s.handle (.check request)).2.handle (.status request)).1 =
        .usage (.ok (Limiter.RuleStatus.afterCheck entries)) := by
  have hs : set.Sound := RuleSet.sound_of_build hbuild
  have hd := Disturbance.onlyOutages_none
  intro s hlets
  have hrun : s = (Service.start ⟨settings, set, whitelist⟩ start).after .none commands :=
    congrArg Prod.snd (Service.run_eq_chronicle _ commands)
  have hlimiter : s.limiter = ⟨settings, set, whitelist⟩ := by
    rw [hrun]
    exact Service.limiter_after hreload
  have hnow : s.now < Word.max := by
    rw [hrun]
    exact Service.now_after_lt hd hclock
  have hout : s.backend.outage = none := by
    rw [hrun]
    exact Service.outage_after rfl houtage
  have ho : s.backend.store.Orderly s.limiter s.now := by
    rw [hlimiter, hrun]
    exact Service.orderly_after (s := .start ⟨settings, set, whitelist⟩ start) hd hreload hclock hs
      (Store.orderly_empty ⟨settings, set, whitelist⟩ start)
  obtain ⟨⟨e, metrics, hends, hcheck⟩, hafter⟩ := Service.handle_check_status hout
    (by rw [hlimiter]; exact hs) hnow ho (by rw [hlimiter]; exact henabled)
    (by rw [hlimiter]; exact hlets)
  obtain ⟨hstatus, hstore⟩ := Service.handle_status hout request
  obtain ⟨d, hd, hallowed, hrule⟩ := Limiter.result_of_foretells hends
    s.limiter.settings.failOpen s.limiter.settings.keySpace (s.now / 1000)
  rw [hd] at hcheck
  exact ⟨_, d, metrics, hstatus, hstore, hcheck, hallowed, hrule, hafter⟩

/-! ## A history -/

namespace UsageSample

/-- One request in any ten seconds from each address. -/
def rules : List Rule := [{ Rule.basic "pace" .address 1 10 with algorithm := .slidingWindow }]

def settings : LimiterSettings := ⟨true, false, 50, "turnstile"⟩

def request : Request := .describe "GET" "/search" "10.0.0.1"

def commands : List Command := [.check request, .advance 5000, .purge, .addOverride .caller "a" none]

/-- A limiter that has checked one request, five seconds ago. -/
def service : Service :=
  ((Service.start ⟨settings, ⟨rules⟩, .ofConfig .empty⟩ 60000).run commands).2

/-- The numbers of a usage. -/
def numbers : Report → List (String × Nat × Nat)
  | .usage (.ok entries) => entries.map fun entry => (entry.ruleId, entry.limit, entry.current)
  | _ => []

end UsageSample

open UsageSample in
/-- Five seconds after a request the entry is full, so the next request is denied, and
the entry stays as it is. -/
theorem usage_foretells_check_of_search :
    numbers (service.handle (.status request)).1 = [("pace", 1, 1)] ∧
      numbers ((service.handle (.check request)).2.handle (.status request)).1 =
        [("pace", 1, 1)] ∧
      ∃ d metrics, (service.handle (.check request)).1 = .decision (.ok d) metrics ∧
        d.allowed = false := by
  have hbuild : RuleSet.build rules .empty = .ok ⟨rules⟩ := rfl
  have henabled : settings.enabled = true := rfl
  have hreload : ∀ command ∈ commands, command.isReload = false := by decide
  have houtage : ∀ command ∈ commands, command.setsOutage = false := by decide
  have hclock : (Clock.mk 60000).Steady commands := by decide
  have hnumbers : numbers (service.handle (.status request)).1 =
      [("pace", 1, 1)] := by decide +kernel
  obtain ⟨entries, d, metrics, hstatus, -, hcheck, hallowed, -⟩ :=
    usage_foretells_check hbuild henabled (.ofConfig .empty) hreload houtage hclock
      request (by decide +kernel)
  refine ⟨hnumbers, by decide +kernel, d, metrics, hcheck, ?_⟩
  have hentries := (congrArg numbers hstatus).symm.trans hnumbers
  have hmem : ("pace", 1, 1) ∈ entries.map fun entry => (entry.ruleId, entry.limit, entry.current) := by
    rw [show entries.map _ = _ from hentries]
    decide
  obtain ⟨entry, hentry, heq⟩ := List.mem_map.1 hmem
  rw [Prod.mk.injEq, Prod.mk.injEq] at heq
  exact hallowed.2 ⟨entry, hentry, by rw [heq.2.1, heq.2.2]⟩

end Admission
