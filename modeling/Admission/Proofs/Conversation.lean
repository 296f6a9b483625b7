/-
What a limiter asks of a store, whatever the store replies.

`Limiter.Asks` is the whole discipline of keys: which calls a limiter ever makes at
a time, and under which keys. `Limiter.Evaluates` is the course of an evaluation,
one constructor for each way in which asking a rule can turn out. Both are read off
the conversations once, here; what follows about checks is by induction on the
course and does not look at the conversations again.
-/
import Admission.Proofs.Exchange
import Admission.Proofs.KeySpace
import Admission.Proofs.Sound
import Admission.Limiter

set_option autoImplicit false

namespace Admission

/-- Whether an evaluation ended because there was no rule left to ask. -/
def Ending.Passes : Ending → Prop
  | noRules | nothingCounted | passed _ => True
  | disabled | whitelisted | denied _ | failed .. => False

namespace Limiter

/-! ## The calls there are -/

/-- **The calls a limiter makes at a time.** Requests are counted for the rules in
force, under the key of the rule for some value at that time; every other call is
about some counter or some override. -/
inductive Asks (l : Limiter) (now : Nat) : Call → Prop
  | incrementFixed {rule : Rule} (hr : rule ∈ l.rules.rules)
      (ha : rule.algorithm = .fixedWindow) (value : String) :
      Asks l now (.incrementFixed
        ((CounterKey.forValue rule value (now / 1000)).render l.settings.keySpace) rule.window)
  | incrementSliding {rule : Rule} (hr : rule ∈ l.rules.rules)
      (ha : rule.algorithm = .slidingWindow) (value : String) :
      Asks l now (.incrementSliding
        ((CounterKey.forValue rule value (now / 1000)).render l.settings.keySpace)
        rule.window rule.limit now)
  | read (key : CounterKey) : Asks l now (.read (key.render l.settings.keySpace))
  | reset (key : CounterKey) : Asks l now (.reset (key.render l.settings.keySpace))
  | resetOverride (dimension : Dimension) (value : String) :
      Asks l now (.reset (overrideKey l.settings.keySpace dimension value))
  | setMarker (dimension : Dimension) (value : String) (ttl : Option Nat) :
      Asks l now (.setMarker (overrideKey l.settings.keySpace dimension value) ttl)
  | hasMarker (dimension : Dimension) (value : String) :
      Asks l now (.hasMarker (overrideKey l.settings.keySpace dimension value))

/-- **Calls under the key of a counter:** a request is counted under it only for the
rule, the value and the bucket that it names, and nothing of an override is there. -/
theorem Asks.of_key {l : Limiter} {now : Nat} {call : Call} {key : CounterKey}
    (h : l.Asks now call) (hkey : call.key = key.render l.settings.keySpace) :
    (∃ rule ∈ l.rules.rules, CounterKey.forValue rule key.value (now / 1000) = key ∧
        (rule.algorithm = .fixedWindow ∧ call = .incrementFixed call.key rule.window ∨
          rule.algorithm = .slidingWindow ∧
            call = .incrementSliding call.key rule.window rule.limit now)) ∨
      call = .read call.key ∨ call = .reset call.key := by
  cases h with
  | incrementFixed hr ha value =>
    have heq := CounterKey.render_injective hkey
    refine .inl ⟨_, hr, ?_, .inl ⟨ha, rfl⟩⟩
    rw [← heq]
    rfl
  | incrementSliding hr ha value =>
    have heq := CounterKey.render_injective hkey
    refine .inl ⟨_, hr, ?_, .inr ⟨ha, rfl⟩⟩
    rw [← heq]
    rfl
  | read => exact .inr (.inl rfl)
  | reset => exact .inr (.inr rfl)
  | resetOverride | setMarker | hasMarker =>
    -- the calls about overrides are under keys of another shape
    exact absurd hkey.symm (CounterKey.render_ne_overrideKey _ _ _ _ _)

/-- Requests are counted under the keys of counters, which no override is under. -/
theorem Asks.key_ne_overrideKey {l : Limiter} {now : Nat} {call : Call} (h : l.Asks now call)
    (hcounts : call.isIncrement = true) (dimension : Dimension) (value : String) :
    call.key ≠ overrideKey l.settings.keySpace dimension value := by
  cases h with
  | incrementFixed | incrementSliding =>
    rw [Call.key]
    exact CounterKey.render_ne_overrideKey _ _ _ _ _
  | read | reset | resetOverride | setMarker | hasMarker => cases hcounts

/-! ## Counting for one rule -/

/-- **What is heard about a rule:** the exchange that counts a request for it, and
what the limiter makes of the reply. -/
inductive Hears (l : Limiter) (rule : Rule) (key : CounterKey) (now : Nat) :
    Exchange → Except Error Observation → Prop
  | fixed (ha : rule.algorithm = .fixedWindow) (reply : Reply FixedCount) :
      Hears l rule key now ⟨.incrementFixed (key.render l.settings.keySpace) rule.window, reply⟩
        ((reply.within l.settings.storeTimeout).map (Observation.ofFixed rule key now))
  | sliding (ha : rule.algorithm = .slidingWindow) (reply : Reply SlidingCount) :
      Hears l rule key now
        ⟨.incrementSliding (key.render l.settings.keySpace) rule.window rule.limit now, reply⟩
        ((reply.within l.settings.storeTimeout).map (Observation.ofSliding key))

variable {l : Limiter} {rule : Rule} {key : CounterKey} {request : Request} {now : Nat}
variable {x : Exchange} {xs : List Exchange}

theorem hears_of_goes {heard : Except Error Observation}
    (h : (l.observe rule key now).Goes xs heard) : ∃ x, xs = [x] ∧ l.Hears rule key now x heard := by
  unfold observe at h
  split at h
  · rename_i ha
    obtain ⟨reply, ys, rfl, hys⟩ := Interaction.goes_ask_iff.1 h
    obtain ⟨rfl, rfl⟩ := Interaction.goes_done_iff.1 hys
    exact ⟨_, rfl, .fixed ha reply⟩
  · rename_i ha
    obtain ⟨reply, ys, rfl, hys⟩ := Interaction.goes_ask_iff.1 h
    obtain ⟨rfl, rfl⟩ := Interaction.goes_done_iff.1 hys
    exact ⟨_, rfl, .sliding ha reply⟩

theorem Hears.call_key {heard : Except Error Observation} (h : l.Hears rule key now x heard) :
    x.call.key = key.render l.settings.keySpace := by
  cases h <;> rfl

theorem Hears.asks {heard : Except Error Observation} {value : String} (hr : rule ∈ l.rules.rules)
    (h : l.Hears rule (CounterKey.forValue rule value (now / 1000)) now x heard) :
    l.Asks now x.call := by
  cases h with
  | fixed ha reply => exact .incrementFixed hr ha value
  | sliding ha reply => exact .incrementSliding hr ha value

/-- A count that was answered is what is heard. -/
theorem Hears.eq_ofFixed {heard : Except Error Observation} {text : String} {c : FixedCount}
    (h : l.Hears rule key now x heard) (hc : x.fixedCount? text = some c) :
    heard = .ok (.ofFixed rule key now c) := by
  cases h with
  | fixed ha reply =>
    rw [Exchange.fixedCount?] at hc
    split at hc
    · rw [Reply.within_eq_ok_iff.2 hc]
      rfl
    · cases hc
  | sliding => cases hc

theorem Hears.eq_ofSliding {heard : Except Error Observation} {text : String} {c : SlidingCount}
    (h : l.Hears rule key now x heard) (hc : x.slidingCount? text = some c) :
    heard = .ok (.ofSliding key c) := by
  cases h with
  | fixed => cases hc
  | sliding ha reply =>
    rw [Exchange.slidingCount?] at hc
    split at hc
    · rw [Reply.within_eq_ok_iff.2 hc]
      rfl
    · cases hc

/-- **What is heard of a fixed window** without a failure is a count that was answered. -/
theorem Hears.exists_fixedCount {o : Observation} (h : l.Hears rule key now x (.ok o))
    (ha : rule.algorithm = .fixedWindow) :
    ∃ c, x.fixedCount? (key.render l.settings.keySpace) = some c ∧
      o = .ofFixed rule key now c := by
  generalize hheard : (Except.ok o : Except Error Observation) = heard at h
  cases h with
  | fixed _ reply =>
    cases hreply : reply.within l.settings.storeTimeout with
    | error error =>
      rw [hreply] at hheard
      cases hheard
    | ok c =>
      rw [hreply] at hheard
      cases hheard
      rw [Exchange.fixedCount?]
      exact ⟨c, (if_pos rfl).trans (Reply.within_eq_ok_iff.1 hreply), rfl⟩
  | sliding hsliding =>
    rw [ha] at hsliding
    cases hsliding

/-- **What is heard of a sliding window** without a failure is a count that was answered. -/
theorem Hears.exists_slidingCount {o : Observation} (h : l.Hears rule key now x (.ok o))
    (ha : rule.algorithm = .slidingWindow) :
    ∃ c, x.slidingCount? (key.render l.settings.keySpace) = some c ∧ o = .ofSliding key c := by
  generalize hheard : (Except.ok o : Except Error Observation) = heard at h
  cases h with
  | fixed hfixed =>
    rw [ha] at hfixed
    cases hfixed
  | sliding _ reply =>
    cases hreply : reply.within l.settings.storeTimeout with
    | error error =>
      rw [hreply] at hheard
      cases hheard
    | ok c =>
      rw [hreply] at hheard
      cases hheard
      rw [Exchange.slidingCount?]
      exact ⟨c, (if_pos rfl).trans (Reply.within_eq_ok_iff.1 hreply), rfl⟩

/-- What is heard without a failure is about the counter that was asked for. -/
theorem Hears.observation_key {o : Observation} (h : l.Hears rule key now x (.ok o)) :
    o.key = key := by
  cases ha : rule.algorithm with
  | fixedWindow =>
    obtain ⟨c, -, rfl⟩ := h.exists_fixedCount ha
    rfl
  | slidingWindow =>
    obtain ⟨c, -, rfl⟩ := h.exists_slidingCount ha
    rfl

/-- The key of a rule for a request is its key for the request's value. -/
theorem eq_forValue_of_forRequest {seconds : Nat}
    (h : CounterKey.forRequest rule request seconds = some key) :
    ∃ value, rule.valueOf request = some value ∧ key = CounterKey.forValue rule value seconds := by
  obtain ⟨value, hvalue, rfl⟩ := Option.map_eq_some_iff.1 h
  exact ⟨value, hvalue, rfl⟩

/-! ## The course of an evaluation -/

/-- **The course of an evaluation:** the rules still to be asked, with the busiest
so far, the exchanges this takes, and how it ends. -/
inductive Evaluates (l : Limiter) (request : Request) (now : Nat) :
    Option Measured → List Rule → List Exchange → Ending → Prop
  | nothing : Evaluates l request now none [] [] .nothingCounted
  | passed (busiest : Measured) : Evaluates l request now (some busiest) [] [] (.passed busiest)
  | skipped {busiest : Option Measured} {rule : Rule} {rest : List Rule} {xs : List Exchange}
      {e : Ending} (hkey : CounterKey.forRequest rule request (now / 1000) = none)
      (h : Evaluates l request now busiest rest xs e) :
      Evaluates l request now busiest (rule :: rest) xs e
  | failed {busiest : Option Measured} {rule : Rule} {rest : List Rule} {x : Exchange}
      {key : CounterKey} {error : Error}
      (hkey : CounterKey.forRequest rule request (now / 1000) = some key)
      (hx : l.Hears rule key now x (.error error)) :
      Evaluates l request now busiest (rule :: rest) [x] (.failed rule error)
  | denied {busiest : Option Measured} {rule : Rule} {rest : List Rule} {x : Exchange}
      {key : CounterKey} {o : Observation}
      (hkey : CounterKey.forRequest rule request (now / 1000) = some key)
      (hx : l.Hears rule key now x (.ok o)) (ho : o.exceeded = true) :
      Evaluates l request now busiest (rule :: rest) [x] (.denied ⟨rule, o⟩)
  | passes {busiest : Option Measured} {rule : Rule} {rest : List Rule} {x : Exchange}
      {xs : List Exchange} {key : CounterKey} {o : Observation} {e : Ending}
      (hkey : CounterKey.forRequest rule request (now / 1000) = some key)
      (hx : l.Hears rule key now x (.ok o)) (ho : o.exceeded = false)
      (h : Evaluates l request now
        (some (busiest.elim ⟨rule, o⟩ (·.busier ⟨rule, o⟩))) rest xs e) :
      Evaluates l request now busiest (rule :: rest) (x :: xs) e

theorem evaluates_of_goes {busiest : Option Measured} {rules : List Rule} {e : Ending}
    (h : (l.askRules request now busiest rules).Goes xs e) :
    l.Evaluates request now busiest rules xs e := by
  induction rules generalizing busiest xs with
  | nil =>
    cases busiest with
    | none =>
      obtain ⟨rfl, rfl⟩ := Interaction.goes_done_iff.1 h
      exact .nothing
    | some busiest =>
      obtain ⟨rfl, rfl⟩ := Interaction.goes_done_iff.1 h
      exact .passed busiest
  | cons rule rest ih =>
    rw [askRules] at h
    split at h
    · rename_i hkey
      exact .skipped hkey (ih h)
    · rename_i key hkey
      obtain ⟨ys, zs, heard, rfl, hy, hz⟩ := Interaction.goes_bind_iff.1 h
      obtain ⟨x, rfl, hx⟩ := hears_of_goes hy
      cases heard with
      | error error =>
        obtain ⟨rfl, rfl⟩ := Interaction.goes_done_iff.1 hz
        exact .failed hkey hx
      | ok o =>
        dsimp only at hz
        split at hz
        · rename_i ho
          obtain ⟨rfl, rfl⟩ := Interaction.goes_done_iff.1 hz
          exact .denied hkey hx ho
        · rename_i ho
          exact .passes hkey hx (by simpa using ho) (ih hz)

/-- What a rule's turn means for the end: a failed call ends the evaluation, an
exceeded rule denies, and a rule that passed does not deny. -/
def Settles (rule : Rule) (heard : Except Error Observation) (e : Ending) : Prop :=
  match heard with
  | .error error => e = .failed rule error
  | .ok o => if o.exceeded then e = .denied ⟨rule, o⟩ else ∀ m, e = .denied m → m.rule.id ≠ rule.id

namespace Evaluates

variable {busiest : Option Measured} {rules : List Rule} {e : Ending}

/-- The rule that denies is one of those that are asked. -/
theorem mem_of_denied {m : Measured} (h : l.Evaluates request now busiest rules xs (.denied m)) :
    m.rule ∈ rules := by
  generalize he : Ending.denied m = e at h
  induction h with
  | nothing | passed | failed => cases he
  | skipped _ _ ih => exact List.mem_cons_of_mem _ (ih he)
  | denied _ _ _ =>
    cases he
    exact List.mem_cons_self
  | passes _ _ _ _ ih => exact List.mem_cons_of_mem _ (ih he)

/-- **Every exchange of an evaluation counts for a rule that is asked,** and settles
how that rule's turn went. -/
theorem heard (hids : (rules.map Rule.id).Nodup) (h : l.Evaluates request now busiest rules xs e) :
    ∀ x ∈ xs, ∃ rule ∈ rules, ∃ key heard,
      CounterKey.forRequest rule request (now / 1000) = some key ∧
        l.Hears rule key now x heard ∧ Settles rule heard e := by
  induction h with
  | nothing | passed => exact List.forall_mem_nil _
  | skipped _ _ ih =>
    intro x hx
    obtain ⟨rule, hr, key, heard, hrest⟩ := ih (List.nodup_cons.1 hids).2 x hx
    exact ⟨rule, List.mem_cons_of_mem _ hr, key, heard, hrest⟩
  | @failed _ rule rest y key error hkey hy =>
    intro x hx
    rw [List.mem_singleton] at hx
    exact ⟨rule, List.mem_cons_self, key, .error error, hkey, hx ▸ hy, rfl⟩
  | @denied _ rule rest y key o hkey hy ho =>
    intro x hx
    rw [List.mem_singleton] at hx
    exact ⟨rule, List.mem_cons_self, key, .ok o, hkey, hx ▸ hy, by simp [Settles, ho]⟩
  | @passes _ rule rest y ys key o e hkey hy ho hrest ih =>
    rw [List.map_cons, List.nodup_cons] at hids
    intro x hx
    rcases List.mem_cons.1 hx with rfl | hx
    · refine ⟨rule, List.mem_cons_self, key, .ok o, hkey, hy, ?_⟩
      simp only [Settles, ho, Bool.false_eq_true, if_false]
      -- a later rule that denies has another id
      rintro m rfl hid
      exact hids.1 (hid ▸ List.mem_map_of_mem (mem_of_denied hrest))
    · obtain ⟨rule', hr, key', heard, hrest⟩ := ih hids.2 x hx
      exact ⟨rule', List.mem_cons_of_mem _ hr, key', heard, hrest⟩

/-- No two rules share a counter, so none is counted in twice. -/
theorem pairwise_key_ne (hids : (rules.map Rule.id).Nodup)
    (h : l.Evaluates request now busiest rules xs e) :
    xs.Pairwise fun x y => x.call.key ≠ y.call.key := by
  induction h with
  | nothing | passed => exact .nil
  | failed | denied => exact List.pairwise_singleton _ _
  | skipped _ _ ih => exact ih (List.nodup_cons.1 hids).2
  | @passes _ rule rest x xs key o e hkey hx _ hrest ih =>
    rw [List.map_cons, List.nodup_cons] at hids
    refine List.pairwise_cons.2 ⟨?_, ih hids.2⟩
    intro y hy hsame
    obtain ⟨rule', hr, key', heard, hkey', hheard, -⟩ := hrest.heard hids.2 y hy
    rw [hx.call_key, hheard.call_key] at hsame
    have heq : key = key' := CounterKey.render_injective hsame
    -- a key names its rule, and the rules that are asked have different ids
    obtain ⟨value, -, rfl⟩ := eq_forValue_of_forRequest hkey
    obtain ⟨value', -, rfl⟩ := eq_forValue_of_forRequest hkey'
    have hid : rule.id = rule'.id := congrArg CounterKey.ruleId heq
    exact hids.1 (hid ▸ List.mem_map_of_mem hr)

/-- **An evaluation that no rule stopped** has asked every rule, and each one passed. -/
theorem heard_of_passes (h : l.Evaluates request now busiest rules xs e) (he : e.Passes) :
    ∀ rule ∈ rules, ∀ key, CounterKey.forRequest rule request (now / 1000) = some key →
      ∃ x ∈ xs, ∃ o, l.Hears rule key now x (.ok o) ∧ o.exceeded = false := by
  induction h with
  | failed | denied => cases he
  | nothing | passed => exact fun rule hr => absurd hr List.not_mem_nil
  | skipped hnone _ ih =>
    intro rule hr key hkey
    rcases List.mem_cons.1 hr with rfl | hr
    · rw [hnone] at hkey
      cases hkey
    · exact ih he rule hr key hkey
  | @passes _ rule rest y ys key o e hkey hy ho _ ih =>
    intro rule' hr key' hkey'
    rcases List.mem_cons.1 hr with rfl | hr
    · rw [hkey, Option.some.injEq] at hkey'
      subst hkey'
      exact ⟨y, List.mem_cons_self, o, hy, ho⟩
    · obtain ⟨x, hx, hrest⟩ := ih he rule' hr key' hkey'
      exact ⟨x, List.mem_cons_of_mem _ hx, hrest⟩

/-- A denial was heard. -/
theorem heard_of_denied {m : Measured}
    (h : l.Evaluates request now busiest rules xs (.denied m)) :
    ∃ x ∈ xs, ∃ key, CounterKey.forRequest m.rule request (now / 1000) = some key ∧
      l.Hears m.rule key now x (.ok m.observation) ∧ m.observation.exceeded = true := by
  generalize he : Ending.denied m = e at h
  induction h with
  | nothing | passed | failed => cases he
  | skipped _ _ ih => exact ih he
  | denied hkey hx ho =>
    cases he
    exact ⟨_, List.mem_cons_self, _, hkey, hx, ho⟩
  | passes _ _ _ _ ih =>
    obtain ⟨x, hx, hrest⟩ := ih he
    exact ⟨x, List.mem_cons_of_mem _ hx, hrest⟩

end Evaluates

/-! ## Checks -/

/-- **The course of a check.** -/
inductive Checks (l : Limiter) (request : Request) (now : Nat) : List Exchange → Ending → Prop
  | disabled (h : l.settings.enabled = false) : Checks l request now [] .disabled
  | whitelisted {ws : List Exchange} (h : l.settings.enabled = true)
      (hw : (l.whitelist.lets l.settings.keySpace l.settings.storeTimeout request).Goes ws true) :
      Checks l request now ws .whitelisted
  | noRules {ws : List Exchange} (h : l.settings.enabled = true)
      (hw : (l.whitelist.lets l.settings.keySpace l.settings.storeTimeout request).Goes ws false)
      (hr : l.rules.resolve request = []) : Checks l request now ws .noRules
  | asked {ws xs : List Exchange} {e : Ending} (h : l.settings.enabled = true)
      (hw : (l.whitelist.lets l.settings.keySpace l.settings.storeTimeout request).Goes ws false)
      (hr : l.rules.resolve request ≠ [])
      (he : l.Evaluates request now none (l.rules.resolve request) xs e) :
      Checks l request now (ws ++ xs) e

theorem checks_of_evaluate_goes {e : Ending} (h : (l.evaluate request now).Goes xs e) :
    l.Checks request now xs e := by
  unfold evaluate at h
  split at h
  · rename_i hoff
    obtain ⟨rfl, rfl⟩ := Interaction.goes_done_iff.1 h
    exact .disabled (by simpa using hoff)
  · rename_i hon
    have hon : l.settings.enabled = true := by simpa using hon
    obtain ⟨ws, ys, past, rfl, hw, hy⟩ := Interaction.goes_bind_iff.1 h
    cases past with
    | true =>
      obtain ⟨rfl, rfl⟩ := Interaction.goes_done_iff.1 hy
      rw [List.append_nil]
      exact .whitelisted hon hw
    | false =>
      simp only [Bool.false_eq_true, if_false] at hy
      split at hy
      · rename_i hr
        obtain ⟨rfl, rfl⟩ := Interaction.goes_done_iff.1 hy
        rw [List.append_nil]
        exact .noRules hon hw hr
      · rename_i rule rest hr
        exact .asked hon hw (by simp [hr]) (hr ▸ evaluates_of_goes hy)

/-- A check takes the course of an evaluation, and answers what its ending says. -/
theorem checks_of_goes {answer : Except Error Decision × List Metric}
    (h : (l.check request now).Goes xs answer) :
    ∃ e, l.Checks request now xs e ∧
      answer.1 = e.result l.settings.failOpen l.settings.keySpace request (now / 1000) := by
  obtain ⟨ys, zs, e, rfl, hy, hz⟩ := Interaction.goes_bind_iff.1 h
  obtain ⟨rfl, rfl⟩ := Interaction.goes_done_iff.1 hz
  rw [List.append_nil]
  exact ⟨e, checks_of_evaluate_goes hy, rfl⟩

/-! ## The discipline of keys -/

theorem calls_of_findMarker_goes {budget : Nat} {keys : List String} {found : Except Error Bool}
    (h : (Whitelist.findMarker budget keys).Goes xs found) :
    ∀ x ∈ xs, ∃ key ∈ keys, x.call = .hasMarker key := by
  induction keys generalizing xs with
  | nil =>
    obtain ⟨rfl, _⟩ := Interaction.goes_done_iff.1 h
    exact List.forall_mem_nil _
  | cons key rest ih =>
    obtain ⟨reply, ys, rfl, hys⟩ := Interaction.goes_ask_iff.1 h
    have hrest : ∀ x ∈ ys, ∃ key ∈ rest, x.call = .hasMarker key := by
      split at hys
      · obtain ⟨rfl, _⟩ := Interaction.goes_done_iff.1 hys
        exact List.forall_mem_nil _
      · exact ih hys
      · obtain ⟨rfl, _⟩ := Interaction.goes_done_iff.1 hys
        exact List.forall_mem_nil _
    intro x hx
    rcases List.mem_cons.1 hx with rfl | hx
    · exact ⟨key, List.mem_cons_self, rfl⟩
    · obtain ⟨k, hk, hcall⟩ := hrest x hx
      exact ⟨k, List.mem_cons_of_mem _ hk, hcall⟩

/-- Looking a request up in the whitelist asks for markers of overrides. -/
theorem calls_of_lets_goes {w : Whitelist} {space : String} {budget : Nat} {past : Bool}
    (h : (w.lets space budget request).Goes xs past) :
    ∀ x ∈ xs, ∃ dimension value, x.call = .hasMarker (overrideKey space dimension value) := by
  unfold Whitelist.lets at h
  split at h
  · obtain ⟨rfl, _⟩ := Interaction.goes_done_iff.1 h
    exact List.forall_mem_nil _
  split at h
  · obtain ⟨rfl, _⟩ := Interaction.goes_done_iff.1 h
    exact List.forall_mem_nil _
  obtain ⟨ys, zs, found, rfl, hy, hz⟩ := Interaction.goes_bind_iff.1 h
  -- nothing more is asked once a marker was found, or none, or the store failed
  have hz : zs = [] := by
    split at hz <;> exact (Interaction.goes_done_iff.1 hz).1
  intro x hx
  rw [hz, List.append_nil] at hx
  obtain ⟨key, hkey, hcall⟩ := calls_of_findMarker_goes hy x hx
  obtain ⟨⟨dimension, value⟩, _, rfl⟩ := List.mem_map.1 hkey
  exact ⟨dimension, value, hcall⟩

/-- Looking a request up does not count it. -/
theorem isIncrement_of_lets_goes {w : Whitelist} {space : String} {budget : Nat} {past : Bool}
    (h : (w.lets space budget request).Goes xs past) :
    ∀ x ∈ xs, x.call.isIncrement = false := by
  intro x hx
  obtain ⟨dimension, value, hcall⟩ := calls_of_lets_goes h x hx
  rw [hcall]
  rfl

theorem Checks.asks (hs : l.rules.Sound) {e : Ending} (h : l.Checks request now xs e) :
    ∀ x ∈ xs, l.Asks now x.call := by
  have hlookups : ∀ {ws : List Exchange} {past : Bool},
      (l.whitelist.lets l.settings.keySpace l.settings.storeTimeout request).Goes ws past →
        ∀ x ∈ ws, l.Asks now x.call := by
    intro ws past hw x hx
    obtain ⟨dimension, value, hcall⟩ := calls_of_lets_goes hw x hx
    rw [hcall]
    exact .hasMarker dimension value
  cases h with
  | disabled => exact List.forall_mem_nil _
  | whitelisted _ hw => exact hlookups hw
  | noRules _ hw _ => exact hlookups hw
  | asked _ hw _ he =>
    intro x hx
    rcases List.mem_append.1 hx with hx | hx
    · exact hlookups hw x hx
    · obtain ⟨rule, hr, key, heard, hkey, hheard, _⟩ := he.heard (hs.ids_resolve request) x hx
      obtain ⟨value, _, rfl⟩ := eq_forValue_of_forRequest hkey
      exact hheard.asks (RuleSet.mem_of_mem_resolve hr)

/-- A check looks for markers of overrides, and counts. -/
theorem Checks.isIncrement_or_looks (hs : l.rules.Sound) {e : Ending}
    (h : l.Checks request now xs e) :
    ∀ x ∈ xs, x.call.isIncrement = true ∨
      ∃ dimension value, x.call = .hasMarker (overrideKey l.settings.keySpace dimension value) := by
  cases h with
  | disabled => exact List.forall_mem_nil _
  | whitelisted _ hw | noRules _ hw => exact fun x hx => .inr (calls_of_lets_goes hw x hx)
  | asked _ hw _ he =>
    intro x hx
    rcases List.mem_append.1 hx with hx | hx
    · exact .inr (calls_of_lets_goes hw x hx)
    · obtain ⟨rule, -, key, heard, -, hheard, -⟩ := he.heard (hs.ids_resolve request) x hx
      refine .inl ?_
      cases hheard with
      | fixed | sliding => rfl

/-! ## What a check hears -/

/-- An allowance by the rules was heard from each of them that governs the request. -/
theorem Checks.heard_of_passes {e : Ending} (h : l.Checks request now xs e) (he : e.Passes) :
    ∀ rule ∈ l.rules.resolve request, ∀ key,
      CounterKey.forRequest rule request (now / 1000) = some key →
        ∃ x ∈ xs, ∃ o, l.Hears rule key now x (.ok o) ∧ o.exceeded = false := by
  intro rule hr key hkey
  cases h with
  | disabled | whitelisted => cases he
  | noRules _ _ hnone =>
    rw [hnone] at hr
    cases hr
  | asked _ _ _ hasked =>
    obtain ⟨x, hx, hrest⟩ := hasked.heard_of_passes he rule hr key hkey
    exact ⟨x, List.mem_append_right _ hx, hrest⟩

/-- A denial was heard from a rule that governs the request. -/
theorem Checks.heard_of_denied {m : Measured} (h : l.Checks request now xs (.denied m)) :
    m.rule ∈ l.rules.resolve request ∧
      ∃ x ∈ xs, ∃ key, CounterKey.forRequest m.rule request (now / 1000) = some key ∧
        l.Hears m.rule key now x (.ok m.observation) ∧ m.observation.exceeded = true := by
  generalize he : Ending.denied m = e at h
  cases h with
  | disabled | whitelisted | noRules => cases he
  | asked _ _ _ hasked =>
    subst he
    obtain ⟨x, hx, hrest⟩ := hasked.heard_of_denied
    exact ⟨hasked.mem_of_denied, x, List.mem_append_right _ hx, hrest⟩

/-- **An exchange of a check that counts a request** was made for a rule that
governs the request, and settles how that rule's turn went. -/
theorem Checks.heard (hs : l.rules.Sound) {e : Ending} (h : l.Checks request now xs e)
    (hx : x ∈ xs) (hcounts : x.call.isIncrement = true) :
    ∃ rule ∈ l.rules.resolve request, ∃ key heard,
      CounterKey.forRequest rule request (now / 1000) = some key ∧
        l.Hears rule key now x heard ∧ Settles rule heard e := by
  have hlookups : ∀ {ws : List Exchange} {past : Bool},
      (l.whitelist.lets l.settings.keySpace l.settings.storeTimeout request).Goes ws past →
        x ∉ ws := by
    intro ws past hw hmem
    rw [isIncrement_of_lets_goes hw x hmem] at hcounts
    cases hcounts
  cases h with
  | disabled => exact absurd hx List.not_mem_nil
  | whitelisted _ hw => exact absurd hx (hlookups hw)
  | noRules _ hw _ => exact absurd hx (hlookups hw)
  | asked _ hw _ he =>
    rcases List.mem_append.1 hx with hx | hx
    · exact absurd hx (hlookups hw)
    · exact he.heard (hs.ids_resolve request) x hx

/-- **A counter is touched once in a check:** what is counted under a key comes first
under it. -/
theorem Checks.pairwise_key_ne (hs : l.rules.Sound) {e : Ending}
    (h : l.Checks request now xs e) :
    xs.Pairwise fun x y => y.call.isIncrement = true → x.call.key ≠ y.call.key := by
  have hlookups : ∀ {ws : List Exchange} {past : Bool},
      (l.whitelist.lets l.settings.keySpace l.settings.storeTimeout request).Goes ws past →
        ws.Pairwise fun x y => y.call.isIncrement = true → x.call.key ≠ y.call.key := by
    intro ws past hw
    refine List.pairwise_of_forall_mem_list ?_
    intro x _ y hy hcounts
    rw [isIncrement_of_lets_goes hw y hy] at hcounts
    cases hcounts
  cases h with
  | disabled => exact .nil
  | whitelisted _ hw => exact hlookups hw
  | noRules _ hw _ => exact hlookups hw
  | asked _ hw _ he =>
    have hasked := he.pairwise_key_ne (hs.ids_resolve request)
    refine List.pairwise_append.2 ⟨hlookups hw, ?_, ?_⟩
    · exact hasked.imp (by intro x y hne _; exact hne)
    -- a lookup is about an override, so it is about no counter that is asked after it
    intro x hx y hy _
    obtain ⟨dimension, value, hcall⟩ := calls_of_lets_goes hw x hx
    obtain ⟨rule, -, key, heard, -, hheard, -⟩ := he.heard (hs.ids_resolve request) y hy
    rw [hcall, hheard.call_key]
    exact (CounterKey.render_ne_overrideKey _ _ _ _ _).symm

/-! ## The other conversations -/

theorem calls_of_readRules_goes {seconds : Nat} {rules : List Rule}
    {usage : Except Error (List RuleStatus)}
    (h : (l.readRules request seconds rules).Goes xs usage) :
    ∀ x ∈ xs, ∃ key : CounterKey, x.call = .read (key.render l.settings.keySpace) := by
  induction rules generalizing xs usage with
  | nil =>
    obtain ⟨rfl, _⟩ := Interaction.goes_done_iff.1 h
    exact List.forall_mem_nil _
  | cons rule rest ih =>
    rw [readRules] at h
    split at h
    · exact ih h
    · rename_i key _
      obtain ⟨reply, ys, rfl, hys⟩ := Interaction.goes_ask_iff.1 h
      intro x hx
      rcases List.mem_cons.1 hx with rfl | hx
      · exact ⟨key, rfl⟩
      · split at hys
        · obtain ⟨rfl, _⟩ := Interaction.goes_done_iff.1 hys
          exact absurd hx List.not_mem_nil
        · obtain ⟨zs, ws, others, rfl, hz, hw⟩ := Interaction.goes_bind_iff.1 hys
          obtain ⟨rfl, _⟩ := Interaction.goes_done_iff.1 hw
          rw [List.append_nil] at hx
          exact ih hz x hx

theorem calls_of_resetKeys_goes {removed : Nat} {keys : List CounterKey} {count : Except Error Nat}
    (h : (l.resetKeys removed keys).Goes xs count) :
    ∀ x ∈ xs, ∃ key : CounterKey, x.call = .reset (key.render l.settings.keySpace) := by
  induction keys generalizing xs removed with
  | nil =>
    obtain ⟨rfl, _⟩ := Interaction.goes_done_iff.1 h
    exact List.forall_mem_nil _
  | cons key rest ih =>
    obtain ⟨reply, ys, rfl, hys⟩ := Interaction.goes_ask_iff.1 h
    intro x hx
    rcases List.mem_cons.1 hx with rfl | hx
    · exact ⟨key, rfl⟩
    · split at hys
      · obtain ⟨rfl, _⟩ := Interaction.goes_done_iff.1 hys
        exact absurd hx List.not_mem_nil
      · exact ih hys x hx

theorem calls_of_requestWithin_goes {budget : Nat} {call : Call}
    {answer : Except Error call.Answer} (h : (Interaction.requestWithin budget call).Goes xs answer) :
    ∀ x ∈ xs, x.call = call := by
  obtain ⟨reply, ys, rfl, hys⟩ := Interaction.goes_ask_iff.1 h
  obtain ⟨rfl, _⟩ := Interaction.goes_done_iff.1 hys
  intro x hx
  rw [List.mem_singleton] at hx
  rw [hx]

theorem calls_of_reset_goes {ruleId : String} {removed : Except Error Bool}
    (h : (l.reset ruleId request now).Goes xs removed) :
    ∀ x ∈ xs, ∃ key : CounterKey, x.call = .reset (key.render l.settings.keySpace) := by
  unfold reset at h
  split at h
  · obtain ⟨rfl, _⟩ := Interaction.goes_done_iff.1 h
    exact List.forall_mem_nil _
  split at h
  · obtain ⟨rfl, _⟩ := Interaction.goes_done_iff.1 h
    exact List.forall_mem_nil _
  · exact fun x hx => ⟨_, calls_of_requestWithin_goes h x hx⟩

end Limiter

end Admission
