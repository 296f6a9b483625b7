/-
Taking counters back, and nothing else.

An administrator names counters by a rule and a request, or by what an event says of its
source. Either way the keys are those that a check of such a request would count under now
(`Limiter.mem_namedKeys_iff`, `Source.names_of_governs`), and what is under any other key
stays (`Service.Forgets`). What is told is how many of the keys held something alive, and
that is the same as something counted: an entry that is alive was never left empty
(`Limiter.Reaches.inUse`). Behind a reset everything begins anew (`reset_takes_back_exactly`).
-/
import Admission.Proofs.Precedence
import Admission.Proofs.Refusal
import Admission.Proofs.Usage

set_option autoImplicit false

namespace Admission

/-! ## Counters in use -/

/-- An instant that the window goes past the present from is still inside it. -/
theorem SlidingLog.hasLeft_eq_false {window now instant : Nat}
    (h : now < Word.add instant window) : hasLeft window now instant = false := by
  rw [hasLeft, decide_eq_false_iff_not]
  rw [Word.add, Word.clamp] at h
  omega

/-- **A counter in use:** it counts something until its time is over. A log holds the
instant that its time comes from. -/
def Entry.InUse (window now : Nat) : Entry → Prop
  | fixed counter => 0 < counter.count
  | sliding log => log.window = Word.clamp window ∧ (log.isExpired now = true ∨
      ∃ instant ∈ log.instants, log.expiresAt ≤ Word.add instant log.window)
  | marker _ => False

namespace Entry.InUse

variable {window now : Nat}

theorem later {later : Nat} {e : Entry} (h : e.InUse window now) (hle : now ≤ later) :
    e.InUse window later := by
  cases e with
  | fixed => exact h
  | sliding log =>
    obtain ⟨hwindow, hexpired | hlast⟩ := h
    · exact ⟨hwindow, .inl (isExpired_mono (e := .sliding log) hle hexpired)⟩
    · exact ⟨hwindow, .inr hlast⟩
  | marker => exact h

/-- **What is alive counts something.** -/
theorem count_pos {e : Entry} (h : e.InUse window now) (halive : e.isExpired now = false) :
    0 < (e.snapshot now).count := by
  cases e with
  | fixed => exact h
  | sliding log =>
    obtain ⟨-, hexpired | ⟨instant, hinstant, hexpires⟩⟩ := h
    · exact absurd hexpired (Bool.eq_false_iff.1 halive)
    · -- the instant that the log lives by has not left the window
      have hlives : now < log.expiresAt := not_le.1 (of_decide_eq_false halive)
      refine List.countP_pos_iff.2 ⟨instant, hinstant, ?_⟩
      rw [SlidingLog.hasLeft_eq_false (hlives.trans_le hexpires)]
      rfl
  | marker => exact h.elim

theorem start (window now : Nat) : (sliding (.start window)).InUse window now :=
  ⟨rfl, .inl (decide_eq_true (Nat.zero_le now))⟩

/-- An attempt leaves a log in use, whether it is let through or not. -/
theorem attempt {log : SlidingLog} (h : (sliding log).InUse window now) (limit : Nat) :
    (sliding (log.attempt now window limit).2).InUse window now := by
  obtain ⟨hwindow, hlast⟩ := h
  have hsame : { log with window := Word.clamp window } = log := by rw [← hwindow]
  rw [SlidingLog.attempt, hsame]
  dsimp only
  split
  · refine ⟨hwindow, or_iff_not_imp_left.2 ?_⟩
    intro halive
    obtain ⟨instant, hinstant, hexpires⟩ := hlast.resolve_left halive
    have hlives : now < log.expiresAt := not_le.1 (mt decide_eq_true halive)
    have hinside := SlidingLog.hasLeft_eq_false (hlives.trans_le hexpires)
    -- so it is not among those at the front that are forgotten
    refine ⟨instant, ?_, hexpires⟩
    rw [← List.takeWhile_append_dropWhile (p := SlidingLog.hasLeft log.window now)
      (l := log.instants), List.mem_append] at hinstant
    refine hinstant.resolve_left ?_
    intro hfront
    have hleft := List.mem_takeWhile_imp hfront
    exact Bool.false_ne_true (hinside.symm.trans hleft)
  · exact ⟨hwindow, .inr ⟨now, List.mem_append_right _ (List.mem_singleton_self _), le_rfl⟩⟩

end Entry.InUse

/-- Being in use, if there is anything, lasts. -/
theorem lasting_inUse (window : Nat) :
    Lasting fun now cell => ∀ e, cell = some e → e.InUse window now where
  fades := by
    rintro now cell after - h (rfl | ⟨rfl, -⟩)
    · exact h
    · intro e he
      cases he
  later := fun hle h e he => (h e he).later hle

/-- Something alive is under a key if and only if reading it shows a number. -/
theorem Store.isSome_live?_iff {window now : Nat} {s : Store} {key : String}
    (h : ∀ e, s.find? key = some e → e.InUse window now) :
    (s.live? now key).isSome = true ↔ (s.read now key).count ≠ 0 := by
  by_cases hfaded : Faded now (s.find? key)
  · rw [read, live?_of_faded hfaded]
    exact iff_of_false Bool.false_ne_true (not_not.2 rfl)
  · obtain ⟨e, hcell, halive⟩ := exists_of_not_faded hfaded
    rw [read, live?_of_alive hcell halive]
    exact iff_of_true rfl ((h e hcell).count_pos halive).ne'

namespace Limiter

variable {l : Limiter} {rule : Rule} {value : String} {seconds now : Nat} {s : Store}

/-- A call about a rule's counter leaves it in use. -/
theorem inUse_answer (hs : l.rules.Sound) (hr : rule ∈ l.rules.rules) {call : Call}
    (hasks : l.Asks now call) (hkey : call.key = l.keyOf rule value seconds) (hd : s.Distinct)
    (hnow : now < Word.max)
    (h : ∀ e, s.find? (l.keyOf rule value seconds) = some e → e.InUse rule.window now) :
    ∀ e, (s.answer now call).2.find? (l.keyOf rule value seconds) = some e →
      e.InUse rule.window now := by
  have hput : ∀ entry : Entry, entry.InUse rule.window now →
      ∀ e, ((s.put (l.keyOf rule value seconds) entry).countWrite now).find?
        (l.keyOf rule value seconds) = some e → e.InUse rule.window now := by
    intro entry hentry
    -- the write may sweep away what it has put there, and that is all
    refine (lasting_inUse rule.window).fades hnow ?_ (Store.fades_countWrite_put hd now _ entry)
    rintro _ ⟨⟩
    exact hentry
  rcases hasks.of_key hkey with ⟨asked, hasked, hfor, hcall⟩ | hcall | hcall
  · -- whoever counts under the rule's key is the rule itself, so a log keeps its window
    have hsame : asked = rule := hs.eq_of_id hasked hr (congrArg CounterKey.ruleId hfor)
    subst hsame
    rw [hkey] at hcall
    rcases hcall with ⟨-, hcall⟩ | ⟨-, hcall⟩
    · rw [hcall]
      exact hput _ (Nat.succ_pos _)
    · rw [hcall]
      refine hput _ (Entry.InUse.attempt ?_ asked.limit)
      unfold Store.slidingLog
      split
      · rename_i log hlog
        exact h _ hlog
      · exact .start _ _
  · rw [hcall]
    exact h
  · rw [hcall, hkey, Store.answer, Store.reset, Store.find?_erase, if_pos rfl]
    intro e he
    cases he

/-- **Every counter that a limiter leaves behind is in use.** -/
theorem Reaches.inUse (h : l.Reaches now s) (hs : l.rules.Sound) (hr : rule ∈ l.rules.rules)
    (hnow : now < Word.max) (value : String) (seconds : Nat) :
    ∀ e, s.find? (l.keyOf rule value seconds) = some e → e.InUse rule.window now := by
  refine h.keeps (lasting_inUse rule.window) hnow ?_ ?_
  · intro start e he
    cases he
  · intro n call hasks hkey u hd hn hcell
    exact inUse_answer hs hr hasks hkey hd hn hcell

end Limiter

/-! ## Removing keys -/

/-- The store without some keys. -/
def Store.eraseAll (s : Store) (keys : List String) : Store := keys.foldl erase s

namespace Store

theorem find?_eraseAll (s : Store) (keys : List String) (k : String) :
    (s.eraseAll keys).find? k = if k ∈ keys then none else s.find? k := by
  induction keys generalizing s with
  | nil => rfl
  | cons key rest ih =>
    rw [eraseAll, List.foldl_cons, ← eraseAll, ih, find?_erase]
    by_cases hk : k = key
    · simp [hk]
    · simp [hk]

/-- Removing keys is not writing. -/
theorem writes_eraseAll (s : Store) (keys : List String) : (s.eraseAll keys).writes = s.writes := by
  induction keys generalizing s with
  | nil => rfl
  | cons key rest ih => exact ih (s.erase key)

end Store

/-- **Removing keys one after another,** each one once: as many are told as hold something
alive at the start. -/
theorem Limiter.run_resetKeys (l : Limiter) (removed now : Nat) (s : Store) {keys : List CounterKey}
    (hkeys : keys.Nodup) :
    (l.resetKeys removed keys).run (Store.reply now) s =
      (.ok (removed + (keys.map (·.render l.settings.keySpace)).countP
          fun k => (s.live? now k).isSome),
        s.eraseAll (keys.map (·.render l.settings.keySpace))) := by
  induction keys generalizing removed s with
  | nil => rfl
  | cons key rest ih =>
    rw [List.nodup_cons] at hkeys
    have hreply : Store.reply now s (.reset (key.render l.settings.keySpace)) =
        (.answered (s.live? now (key.render l.settings.keySpace)).isSome,
          s.erase (key.render l.settings.keySpace)) := rfl
    -- a key removed before is another one
    have hrest : (rest.map (·.render l.settings.keySpace)).countP
        (fun k => ((s.erase (key.render l.settings.keySpace)).live? now k).isSome) =
          (rest.map (·.render l.settings.keySpace)).countP
            fun k => (s.live? now k).isSome := by
      refine List.countP_congr ?_
      intro k hk
      obtain ⟨other, hother, rfl⟩ := List.mem_map.1 hk
      have hne : other.render l.settings.keySpace ≠ key.render l.settings.keySpace := by
        intro hsame
        exact hkeys.1 (CounterKey.render_injective hsame ▸ hother)
      rw [Store.live?, Store.find?_erase, if_neg hne, ← Store.live?]
    rw [resetKeys, Interaction.run_ask, hreply]
    dsimp only [Reply.within]
    rw [ih _ _ hkeys.2, hrest, List.map_cons, List.countP_cons]
    have hcount : ∀ (held : Bool) (others : Nat),
        (if held then removed + 1 else removed) + others =
          removed + (others + if held = true then 1 else 0) := by
      intro held others
      cases held with
      | true =>
        simp only [if_true]
        omega
      | false => rfl
    rw [hcount]
    rfl

/-! ## The keys that are named -/

/-- **What a source names along a rule's dimension:** its own address, caller or tenant. An
endpoint's counter is shared, so it is named by an endpoint that the rule covers. -/
inductive Source.Names (source : Source) : Rule → String → Prop
  | address {rule : Rule} {value : String} (hd : rule.dimension = .address)
      (h : source.address = some value) : Names source rule value
  | caller {rule : Rule} {value : String} (hd : rule.dimension = .caller)
      (h : source.callerId = some value) : Names source rule value
  | tenant {rule : Rule} {value : String} (hd : rule.dimension = .tenant)
      (h : source.tenantId = some value) : Names source rule value
  | endpoint {rule : Rule} {path : String} (hd : rule.dimension = .endpoint)
      (h : source.endpoint = some path)
      (hcovers : rule.endpoints = [] ∨ ∃ p ∈ rule.endpoints, (p.matchPath path).isSome = true) :
      Names source rule rule.endpointScope

/-- **A request names the counters that it is counted in.** -/
theorem Source.names_of_governs {rule : Rule} {request : Request} {value : String}
    (h : rule.Governs request) (hvalue : rule.valueOf request = some value) :
    request.source.Names rule value := by
  unfold Rule.valueOf at hvalue
  split at hvalue
  · rename_i hd
    exact .address hd hvalue
  · rename_i hd
    exact .caller hd hvalue
  · rename_i hd
    exact .tenant hd hvalue
  · rename_i hd
    cases hvalue
    exact .endpoint hd rfl h.endpoint

namespace Limiter

variable {l : Limiter} {rule : Rule} {source : Source} {selected : List String} {seconds : Nat}

theorem namedValue_eq_some_iff {value : String} :
    namedValue rule source = some value ↔ source.Names rule value := by
  constructor
  · intro h
    unfold namedValue at h
    split at h
    · rename_i hd
      exact .address hd h
    · rename_i hd
      exact .caller hd h
    · rename_i hd
      exact .tenant hd h
    · rename_i hd
      split at h
      · cases h
      · rename_i path hpath
        obtain ⟨closeness, hmatch, rfl⟩ := Option.map_eq_some_iff.1 h
        exact .endpoint hd hpath (Rule.isSome_matchEndpoint_iff.1 (by rw [hmatch]; rfl))
  · intro h
    unfold namedValue
    cases h with
    | address hd h | caller hd h | tenant hd h =>
      rw [hd]
      exact h
    | endpoint hd h hcovers =>
      obtain ⟨closeness, hmatch⟩ :=
        Option.isSome_iff_exists.1 (Rule.isSome_matchEndpoint_iff.2 hcovers)
      rw [hd, h]
      dsimp only
      rw [hmatch]
      rfl

/-- **The keys that are named** are those of the selected rules for what the source names. -/
theorem mem_namedKeys_iff {key : CounterKey} :
    key ∈ l.namedKeys selected source seconds ↔
      ∃ rule ∈ l.rules.rules, (selected = [] ∨ rule.id ∈ selected) ∧
        ∃ value, source.Names rule value ∧ key = CounterKey.forValue rule value seconds := by
  rw [namedKeys, List.mem_filterMap]
  refine exists_congr fun rule => and_congr_right fun _ => ?_
  have hselected : (selected.isEmpty || decide (rule.id ∈ selected)) = true ↔
      selected = [] ∨ rule.id ∈ selected := by
    rw [Bool.or_eq_true, List.isEmpty_iff, decide_eq_true_iff]
  split
  · rename_i h
    rw [and_iff_right (hselected.1 h), Option.map_eq_some_iff]
    refine exists_congr fun value => and_congr namedValue_eq_some_iff eq_comm
  · rename_i h
    exact iff_of_false nofun fun hboth => h (hselected.2 hboth.1)

/-- The same for the keys as they are written. -/
theorem mem_map_render_namedKeys_iff {k : String} :
    k ∈ (l.namedKeys selected source seconds).map (·.render l.settings.keySpace) ↔
      ∃ rule ∈ l.rules.rules, (selected = [] ∨ rule.id ∈ selected) ∧
        ∃ value, source.Names rule value ∧ k = l.keyOf rule value seconds := by
  rw [List.mem_map]
  constructor
  · rintro ⟨_, hmem, rfl⟩
    obtain ⟨rule, hr, hselected, value, hnames, rfl⟩ := mem_namedKeys_iff.1 hmem
    exact ⟨rule, hr, hselected, value, hnames, rfl⟩
  · rintro ⟨rule, hr, hselected, value, hnames, rfl⟩
    exact ⟨_, mem_namedKeys_iff.2 ⟨rule, hr, hselected, value, hnames, rfl⟩, rfl⟩

/-- No key is named twice, since no two rules share one. -/
theorem nodup_namedKeys (hs : l.rules.Sound) (selected : List String) (source : Source)
    (seconds : Nat) : (l.namedKeys selected source seconds).Nodup := by
  -- a key carries the id of its rule, and the ids differ
  have hids := List.pairwise_map.1 hs.ids
  rw [namedKeys, List.Nodup, List.pairwise_filterMap]
  refine hids.imp ?_
  intro a b hne key hkey other hother hsame
  have hid : ∀ {rule : Rule} {key : CounterKey},
      (if selected.isEmpty || decide (rule.id ∈ selected) then
        (namedValue rule source).map fun value => CounterKey.forValue rule value seconds
      else none) = some key → key.ruleId = rule.id := by
    intro rule key h
    split at h
    · obtain ⟨value, -, rfl⟩ := Option.map_eq_some_iff.1 h
      rfl
    · cases h
  exact hne ((hid hkey).symm.trans ((congrArg CounterKey.ruleId hsame).trans (hid hother)))

end Limiter

/-! ## Services that forget -/

/-- **Resetting a rule in force** removes the key of the request's value, if it has one. -/
theorem Limiter.run_reset {l : Limiter} (hs : l.rules.Sound) {rule : Rule}
    (hr : rule ∈ l.rules.rules) (request : Request) (now : Nat) (s : Store) :
    (l.reset rule.id request now).run (Store.reply now) s =
      let keys := ((rule.valueOf request).map fun value => l.keyOf rule value (now / 1000)).toList
      (.ok (keys.any fun k => (s.live? now k).isSome), s.eraseAll keys) := by
  rw [reset, hs.get?_eq_some hr]
  dsimp only
  rw [CounterKey.forRequest]
  cases rule.valueOf request with
  | none => rfl
  | some value =>
    change ((Except.ok _ : Except Error Bool), _) = (.ok (_ || false), _)
    rw [Bool.or_false]
    rfl

/-- **A service that has forgotten some keys** is the same otherwise. -/
structure Service.Forgets (s : Service) (keys : List String) (s' : Service) : Prop where
  limiter : s'.limiter = s.limiter
  now : s'.now = s.now
  outage : s'.backend.outage = s.backend.outage
  writes : s'.backend.store.writes = s.backend.store.writes
  find? : ∀ k, s'.backend.store.find? k = if k ∈ keys then none else s.backend.store.find? k

namespace Service

variable {s : Service}

/-- A conversation that removes keys makes the service forget them. -/
theorem forgets_converse (h : s.backend.outage = none) {α : Type} {m : Interaction α} {value : α}
    {keys : List String}
    (hrun : m.run (Store.reply s.now) s.backend.store = (value, s.backend.store.eraseAll keys)) :
    (s.converse m).1 = value ∧ s.Forgets keys (s.converse m).2 := by
  obtain ⟨hvalue, hstore, houtage, hnow, hlimiter⟩ := converse_of_no_outage h m
  rw [hrun] at hvalue hstore
  refine ⟨hvalue, hlimiter, hnow, houtage.trans h.symm, ?_, ?_⟩
  · rw [hstore, Store.writes_eraseAll]
  · rw [hstore]
    exact Store.find?_eraseAll _ keys

/-- A rule that is not in force cannot be reset, and nothing happens. -/
theorem handle_reset_of_unknown {id : String}
    (h : ∀ rule ∈ s.limiter.rules.rules, rule.id ≠ id) (request : Request) :
    s.handle (.reset id request) = (.removed (.error (.rule id Rule.Fault.unknownId.reason)), s) := by
  have hreset : s.limiter.reset id request s.now =
      .done (.error (.rule id Rule.Fault.unknownId.reason)) := by
    rw [Limiter.reset, RuleSet.get?_eq_none_iff.2 h]
  rw [handle, hreset]
  rfl

theorem handle_reset (h : s.backend.outage = none) (hs : s.limiter.rules.Sound) {rule : Rule}
    (hr : rule ∈ s.limiter.rules.rules) (request : Request) :
    let keys := ((rule.valueOf request).map fun value =>
      s.limiter.keyOf rule value (s.now / 1000)).toList
    (s.handle (.reset rule.id request)).1 =
        .removed (.ok (keys.any fun k => (s.backend.store.live? s.now k).isSome)) ∧
      s.Forgets keys (s.handle (.reset rule.id request)).2 := by
  intro keys
  obtain ⟨hvalue, hforgets⟩ :=
    forgets_converse h (Limiter.run_reset hs hr request s.now s.backend.store)
  exact ⟨congrArg Report.removed hvalue, hforgets⟩

/-- **A counter that was reset cannot be reset again.** -/
theorem handle_reset_again (h : s.backend.outage = none) (hs : s.limiter.rules.Sound) {rule : Rule}
    (hr : rule ∈ s.limiter.rules.rules) (request : Request) :
    ((s.handle (.reset rule.id request)).2.handle (.reset rule.id request)).1 =
      .removed (.ok false) := by
  obtain ⟨-, hforgets⟩ := handle_reset h hs hr request
  have hagain := (handle_reset (hforgets.outage.trans h) (by rwa [hforgets.limiter])
    (by rwa [hforgets.limiter]) request).1
  rw [hagain, hforgets.limiter, hforgets.now]
  refine congrArg (fun held => Report.removed (.ok held)) (List.any_eq_false.2 ?_)
  intro k hk
  rw [Store.live?, hforgets.find?, if_pos hk]
  exact Bool.false_ne_true

theorem handle_resetFor (h : s.backend.outage = none) (hs : s.limiter.rules.Sound)
    (selected : List String) (source : Source) :
    let keys := (s.limiter.namedKeys selected source (s.now / 1000)).map
      (·.render s.limiter.settings.keySpace)
    (s.handle (.resetFor selected source)).1 =
        .removedCount (.ok (keys.countP fun k => (s.backend.store.live? s.now k).isSome)) ∧
      s.Forgets keys (s.handle (.resetFor selected source)).2 := by
  intro keys
  have hrun := s.limiter.run_resetKeys 0 s.now s.backend.store
    (Limiter.nodup_namedKeys hs selected source (s.now / 1000))
  rw [Nat.zero_add] at hrun
  obtain ⟨hvalue, hforgets⟩ := forgets_converse (m := s.limiter.resetFor selected source s.now) h hrun
  exact ⟨congrArg Report.removedCount hvalue, hforgets⟩

end Service

/-! ## Beginning anew -/

namespace Limiter

namespace RuleStatus

/-- A check of a usage without a full entry is counted in every entry. -/
theorem afterCheck_eq_map_counted {entries : List RuleStatus}
    (h : ∀ e ∈ entries, e.isFull = false) : afterCheck entries = entries.map counted := by
  induction entries with
  | nil => rfl
  | cons e rest ih =>
    rw [List.forall_mem_cons] at h
    rw [afterCheck, if_neg (by rw [h.1]; exact Bool.false_ne_true), ih h.2, List.map_cons]

end RuleStatus

/-- An evaluation passes if no entry of the usage before it is full. -/
theorem Foretells.passes {entries : List RuleStatus} {e : Ending} (h : Foretells entries e)
    (hfull : ∀ e ∈ entries, e.isFull = false) : e.Passes := by
  have hnone : entries.find? RuleStatus.isFull = none := by
    rw [List.find?_eq_none]
    intro entry hentry
    rw [hfull entry hentry]
    exact Bool.false_ne_true
  rw [Foretells, hnone] at h
  exact h

variable {l : Limiter} {rule : Rule} {value : String} {request : Request} {now : Nat} {s : Store}

theorem mem_usage_iff {entry : RuleStatus} {rules : List Rule} :
    entry ∈ l.usage s request now rules ↔ ∃ rule ∈ rules, ∃ value,
      rule.valueOf request = some value ∧ entry = statusOf rule (l.keyOf rule value (now / 1000))
        (s.read now (l.keyOf rule value (now / 1000))) := by
  rw [usage, List.mem_filterMap]
  refine exists_congr fun rule => and_congr_right fun _ => ?_
  rw [CounterKey.forRequest, Option.map_map, Option.map_eq_some_iff]
  exact exists_congr fun value => and_congr_right fun _ => eq_comm

/-- The usage of a request has an entry for each rule that governs it. -/
theorem map_ruleId_usage (l : Limiter) (s : Store) (request : Request) (now : Nat) :
    (l.usage s request now (l.rules.resolve request)).map RuleStatus.ruleId =
      (l.rules.resolve request).map Rule.id := by
  have hvalues : ∀ rule ∈ l.rules.resolve request, (rule.valueOf request).isSome = true :=
    fun rule hr => RuleSet.isSome_valueOf_of_mem_resolve hr
  generalize l.rules.resolve request = rules at hvalues ⊢
  induction rules with
  | nil => rfl
  | cons rule rest ih =>
    rw [List.forall_mem_cons] at hvalues
    obtain ⟨value, hvalue⟩ := Option.isSome_iff_exists.1 hvalues.1
    have hkey : CounterKey.forRequest rule request (now / 1000) =
        some (CounterKey.forValue rule value (now / 1000)) := by
      rw [CounterKey.forRequest, hvalue]
      rfl
    rw [usage_cons_of_some hkey, List.map_cons, ih hvalues.2, List.map_cons]
    rfl

/-- **Counting in a counter that is not there** is answered one. -/
theorem Hears.count_of_none {o : Observation} {x : Exchange} {u : Store} (hlimit : 0 < rule.limit)
    (h : l.Hears rule (CounterKey.forValue rule value (now / 1000)) now x (.ok o))
    (hreply : x.reply = .answered (u.answer now x.call).1)
    (hnone : u.find? (l.keyOf rule value (now / 1000)) = none) : o.count = 1 := by
  have hobserve := h.run_observe hreply
  cases ha : rule.algorithm with
  | fixedWindow =>
    rw [run_observe_fixed ha, Prod.mk.injEq, Except.ok.injEq] at hobserve
    obtain ⟨rfl, -⟩ := hobserve
    rw [Observation.ofFixed, Store.incrementFixed,
      Store.liveFixed_of_faded (hnone ▸ Faded.none now)]
    rfl
  | slidingWindow =>
    rw [run_observe_sliding ha, Prod.mk.injEq, Except.ok.injEq] at hobserve
    obtain ⟨rfl, -⟩ := hobserve
    rw [Observation.ofSliding, Store.incrementSliding, Store.slidingLog_of_none hnone]
    change (SlidingCount.count (if rule.limit ≤ 0 then _ else _ : SlidingCount × SlidingLog).1) = 1
    rw [if_neg (Nat.not_le.2 hlimit)]
    rfl

end Limiter

namespace Service

variable {s : Service} {request : Request}

/-- **A check without outages** takes the course that its evaluation takes. -/
theorem checks_of_no_outage (h : s.backend.outage = none) (request : Request) :
    let e := ((s.limiter.evaluate request s.now).run (Store.reply s.now) s.backend.store).1
    s.limiter.Checks request s.now (s.happening .none (.check request)).exchanges e ∧
      (s.handle (.check request)).1 = .decision
        (e.result s.limiter.settings.failOpen s.limiter.settings.keySpace request (s.now / 1000))
        (e.metrics s.limiter.settings.failOpen) := by
  intro e
  have hrun : ((s.limiter.check request s.now).run (Store.reply s.now) s.backend.store).1 =
      (e.result s.limiter.settings.failOpen s.limiter.settings.keySpace request (s.now / 1000),
        e.metrics s.limiter.settings.failOpen) := by
    rw [Limiter.check, Interaction.run_bind]
    rfl
  refine ⟨?_, ?_⟩
  · have hm : s.limiter.conversation s.now (.check request) =
      some ((s.limiter.check request s.now).bind fun answer =>
        .done (.decision answer.1 answer.2)) := rfl
    have hgoes := Interaction.goes_exchanges (Store.reply s.now)
      (s.limiter.evaluate request s.now) s.backend.store
    rw [exchanges_of_no_outage h hm, Interaction.exchanges_bind, Limiter.check,
      Interaction.exchanges_bind]
    -- what is made of the ending takes no further exchanges
    change s.limiter.Checks request s.now ((_ ++ []) ++ []) e
    rw [List.append_nil, List.append_nil]
    exact Limiter.checks_of_evaluate_goes hgoes
  · have hvalue := (converse_of_no_outage h (s.limiter.check request s.now)).1
    rw [hrun] at hvalue
    change Report.decision (s.converse (s.limiter.check request s.now)).1.1
      (s.converse (s.limiter.check request s.now)).1.2 = _
    rw [hvalue]

/-- **Nothing is under the keys that a request would be counted under.** -/
def Vacant (s : Service) (request : Request) : Prop :=
  ∀ rule ∈ s.limiter.rules.resolve request, ∀ value, rule.valueOf request = some value →
    s.backend.store.find? (s.limiter.keyOf rule value (s.now / 1000)) = none

/-- The counters of a request are among those that its source names. -/
theorem vacant_resetFor (h : s.backend.outage = none) (hs : s.limiter.rules.Sound)
    (request : Request) : (s.handle (.resetFor [] request.source)).2.Vacant request := by
  obtain ⟨-, hforgets⟩ := handle_resetFor h hs [] request.source
  intro rule hr value hvalue
  rw [hforgets.limiter] at hr ⊢
  obtain ⟨hmem, hrelevant⟩ := RuleSet.mem_resolve_iff.1 hr
  have hnames := Source.names_of_governs (RuleSet.isSome_relevance?_iff.1 hrelevant) hvalue
  rw [hforgets.now, hforgets.find?, if_pos]
  exact Limiter.mem_map_render_namedKeys_iff.2 ⟨rule, hmem, .inl rfl, value, hnames, rfl⟩

namespace Vacant

/-- The usage shows nothing. -/
theorem current_eq_zero (h : s.Vacant request) {entry : Limiter.RuleStatus}
    (hentry : entry ∈ s.limiter.usage s.backend.store request s.now
      (s.limiter.rules.resolve request)) : entry.current = 0 := by
  obtain ⟨rule, hr, value, hvalue, rfl⟩ := Limiter.mem_usage_iff.1 hentry
  rw [Limiter.statusOf, Store.read, Store.live?, h rule hr value hvalue]
  rfl

theorem isFull_eq_false (h : s.Vacant request) (hs : s.limiter.rules.Sound)
    {entry : Limiter.RuleStatus} (hentry : entry ∈ s.limiter.usage s.backend.store request s.now
      (s.limiter.rules.resolve request)) : entry.isFull = false := by
  have hzero := h.current_eq_zero hentry
  obtain ⟨rule, hr, value, -, rfl⟩ := Limiter.mem_usage_iff.1 hentry
  refine decide_eq_false ?_
  rw [hzero, not_le]
  exact hs.limit_pos _ (RuleSet.mem_of_mem_resolve hr)

/-- **What is heard of a rule is one.** -/
theorem count_of_hears (h : s.Vacant request) (hreach : s.Reachable) {rule : Rule}
    {value : String} (hr : rule ∈ s.limiter.rules.resolve request)
    (hvalue : rule.valueOf request = some value) {x : Exchange} {o : Observation}
    (hx : x ∈ (s.happening .none (.check request)).exchanges)
    (hheard : s.limiter.Hears rule (CounterKey.forValue rule value (s.now / 1000)) s.now x
      (.ok o)) : o.count = 1 := by
  obtain ⟨u, -, hfades, hreply, -⟩ :=
    exists_meeting_of_counts hreach Disturbance.onlyOutages_none hx
      (Exchange.countsUnder_iff.1 hheard.countsUnder).1 hheard.isAnswered
  have hkey : x.call.key = s.limiter.keyOf rule value (s.now / 1000) := hheard.call_key
  rw [hkey, h rule hr value hvalue] at hfades
  refine hheard.count_of_none (hreach.sound.limit_pos _ (RuleSet.mem_of_mem_resolve hr)) hreply ?_
  rcases hfades with hnone | ⟨hnone, -⟩
  · exact hnone
  · exact hnone

/-- **A check passes and counts one** for every rule that governs the request. -/
theorem handle_check (h : s.Vacant request) (hreach : s.Reachable) (hout : s.backend.outage = none)
    (henabled : s.limiter.settings.enabled = true)
    (hlets : (s.converse (s.limiter.whitelist.lets s.limiter.settings.keySpace
      s.limiter.settings.storeTimeout request)).1 = false) :
    ∃ dec metrics, (s.handle (.check request)).1 = .decision (.ok dec) metrics ∧
      dec.allowed = true ∧ (dec.hasRule = true → dec.currentCount = 1) ∧
      ∀ rule ∈ s.limiter.rules.resolve request, ∀ value, rule.valueOf request = some value →
        ∃ x ∈ (s.happening .none (.check request)).exchanges, ∃ o,
          s.limiter.Hears rule (CounterKey.forValue rule value (s.now / 1000)) s.now x (.ok o) ∧
            o.count = 1 := by
  rw [(converse_of_no_outage hout _).1] at hlets
  obtain ⟨hends, -⟩ := Limiter.evaluate_of_orderly hreach.sound hreach.now_lt hreach.orderly
    henabled hlets
  have hpasses := hends.passes fun entry hentry => h.isFull_eq_false hreach.sound hentry
  obtain ⟨hchecks, hreport⟩ := checks_of_no_outage hout request
  generalize ((s.limiter.evaluate request s.now).run (Store.reply s.now) s.backend.store).1 = e
    at hpasses hchecks hreport
  have hheard := hchecks.heard_of_passes hpasses
  have hrules : ∀ rule ∈ s.limiter.rules.resolve request, ∀ value,
      rule.valueOf request = some value → ∃ x ∈ (s.happening .none (.check request)).exchanges,
        ∃ o, s.limiter.Hears rule (CounterKey.forValue rule value (s.now / 1000)) s.now x (.ok o) ∧
          o.count = 1 := by
    intro rule hr value hvalue
    obtain ⟨x, hx, o, hears, -⟩ :=
      hheard rule hr _ (by rw [CounterKey.forRequest, hvalue]; rfl)
    exact ⟨x, hx, o, hears, h.count_of_hears hreach hr hvalue hx hears⟩
  -- no entry of the usage is full, so these are all the endings there can be
  cases e with
  | disabled | whitelisted | denied | failed => cases hpasses
  | noRules | nothingCounted =>
    exact ⟨_, _, hreport, rfl, fun hrule => absurd hrule Bool.false_ne_true, hrules⟩
  | passed busiest =>
    refine ⟨_, _, hreport, rfl, fun _ => ?_, hrules⟩
    obtain ⟨hr, x, hx, key, hkey, hears, -⟩ := hchecks.heard_of_applied (.inl rfl)
    obtain ⟨value, hvalue, rfl⟩ := Limiter.eq_forValue_of_forRequest hkey
    exact h.count_of_hears hreach hr hvalue hx hears

end Vacant

end Service

/-! ## The law -/

/-- **A reset takes back exactly what is named.** A limiter with rules that could be made
has served any commands but reloads, over a clock that never goes backward and a store that
does not fail. Under the keys of its rules, something is alive if and only if reading shows
a number.

A rule that is not in force cannot be reset, and nothing happens then. A rule in force
forgets the key of the request's value, tells whether something alive was there, and
tells that nothing is there if it is reset once more.

A source makes the limiter forget the keys of the selected rules for the values that it
names, all of them if none is selected, each key once; it is told how many of them held
something alive.

If a request resets what its own source names, its usage has an entry for each rule that
governs it, and all of them show zero. If limiting is switched on and the request is not
let past, a check of it at the same time is allowed, every rule that governs it counts one,
and the usage afterwards shows each entry with one request more. -/
theorem reset_takes_back_exactly {rules : List Rule} {defaults : DefaultLimits} {set : RuleSet}
    (hbuild : RuleSet.build rules defaults = .ok set) (settings : LimiterSettings)
    (whitelist : Whitelist) {start : Nat} {commands : List Command}
    (hreload : ∀ command ∈ commands, command.isReload = false)
    (houtage : ∀ command ∈ commands, command.setsOutage = false)
    (hclock : (Clock.mk start).Steady commands) :
    let l : Limiter := ⟨settings, set, whitelist⟩
    let s := ((Service.start l start).run commands).2
    let key (rule : Rule) (value : String) := l.keyOf rule value (s.now / 1000)
    let alive (k : String) := (s.backend.store.live? s.now k).isSome
    (∀ rule ∈ set.rules, ∀ value, alive (key rule value) = true ↔
      (s.backend.store.read s.now (key rule value)).count ≠ 0) ∧
    (∀ id request, (∀ rule ∈ set.rules, rule.id ≠ id) →
      s.handle (.reset id request) = (.removed (.error (.rule id Rule.Fault.unknownId.reason)), s)) ∧
    (∀ rule ∈ set.rules, ∀ request,
      let keys := ((rule.valueOf request).map (key rule)).toList
      let s' := (s.handle (.reset rule.id request)).2
      (s.handle (.reset rule.id request)).1 = .removed (.ok (keys.any alive)) ∧
        s.Forgets keys s' ∧ (s'.handle (.reset rule.id request)).1 = .removed (.ok false)) ∧
    (∀ selected source, ∃ keys : List String, keys.Nodup ∧
      (∀ k, k ∈ keys ↔ ∃ rule ∈ set.rules, (selected = [] ∨ rule.id ∈ selected) ∧
        ∃ value, source.Names rule value ∧ k = key rule value) ∧
      (s.handle (.resetFor selected source)).1 = .removedCount (.ok (keys.countP alive)) ∧
      s.Forgets keys (s.handle (.resetFor selected source)).2) ∧
    ∀ request, let s' := (s.handle (.resetFor [] request.source)).2
      ∃ entries, (s'.handle (.status request)).1 = .usage (.ok entries) ∧
        entries.map Limiter.RuleStatus.ruleId = (set.resolve request).map Rule.id ∧
        (∀ entry ∈ entries, entry.current = 0) ∧
        (settings.enabled = true →
          (s'.converse (whitelist.lets settings.keySpace settings.storeTimeout request)).1 = false →
          (∃ dec metrics, (s'.handle (.check request)).1 = .decision (.ok dec) metrics ∧
            dec.allowed = true ∧ (dec.hasRule = true → dec.currentCount = 1)) ∧
          (∀ rule ∈ set.resolve request, ∀ value, rule.valueOf request = some value →
            ∃ x ∈ (s'.happening .none (.check request)).exchanges, ∃ o,
              l.Hears rule (CounterKey.forValue rule value (s.now / 1000)) s.now x (.ok o) ∧
                o.count = 1) ∧
          ((s'.handle (.check request)).2.handle (.status request)).1 =
            .usage (.ok (entries.map Limiter.RuleStatus.counted))) := by
  have hsound : set.Sound := RuleSet.sound_of_build hbuild
  intro l s key alive
  obtain ⟨hlimiter, hreach, hout⟩ := Service.reachable_run (l := l) hsound hreload houtage hclock
  change s.limiter = l at hlimiter
  change s.Reachable at hreach
  change s.backend.outage = none at hout
  have hrules : s.limiter.rules = set := by rw [hlimiter]
  have hkey : ∀ rule value, key rule value = s.limiter.keyOf rule value (s.now / 1000) := by
    intro rule value
    rw [hlimiter]
  refine ⟨?_, ?_, ?_, ?_, ?_⟩
  · intro rule hr value
    rw [← hrules] at hr
    rw [hkey]
    exact Store.isSome_live?_iff (hreach.reaches.inUse hreach.sound hr hreach.now_lt value _)
  · intro id request hunknown
    rw [← hrules] at hunknown
    exact Service.handle_reset_of_unknown hunknown request
  · intro rule hr request keys s'
    rw [← hrules] at hr
    have hkeys : keys = ((rule.valueOf request).map fun value =>
        s.limiter.keyOf rule value (s.now / 1000)).toList := by
      rw [← funext (hkey rule)]
    obtain ⟨hreport, hforgets⟩ := Service.handle_reset hout hreach.sound hr request
    rw [← hkeys] at hreport hforgets
    exact ⟨hreport, hforgets, Service.handle_reset_again hout hreach.sound hr request⟩
  · intro selected source
    obtain ⟨hreport, hforgets⟩ := Service.handle_resetFor hout hreach.sound selected source
    refine ⟨_, ?_, ?_, hreport, hforgets⟩
    · exact (Limiter.nodup_namedKeys hreach.sound selected source _).map
        fun _ _ => CounterKey.render_injective
    · intro k
      rw [Limiter.mem_map_render_namedKeys_iff, hrules]
      simp only [hkey]
  · intro request s'
    -- of the service that has forgotten the keys only these facts are needed
    obtain ⟨-, hforgets⟩ := Service.handle_resetFor hout hreach.sound [] request.source
    have hvacant := Service.vacant_resetFor hout hreach.sound request
    have hreach' : s'.Reachable := by
      have hconverses : (s.handleAmid .none (.resetFor [] request.source)).2.Reachable :=
        hreach.converses Disturbance.onlyOutages_none rfl
      rwa [Service.handleAmid_none] at hconverses
    change s'.Vacant request at hvacant
    change s.Forgets _ s' at hforgets
    have hout' : s'.backend.outage = none := hforgets.outage.trans hout
    have hlimiter' : s'.limiter = l := hforgets.limiter.trans hlimiter
    have hnow : s'.now = s.now := hforgets.now
    clear_value s'
    refine ⟨_, (Service.handle_status hout' request).1, ?_, ?_, ?_⟩
    · rw [Limiter.map_ruleId_usage, hlimiter']
    · exact fun entry hentry => hvacant.current_eq_zero hentry
    · intro henabled hlets
      have henabled' : s'.limiter.settings.enabled = true := by rwa [hlimiter']
      have hlets' : (s'.converse (s'.limiter.whitelist.lets s'.limiter.settings.keySpace
          s'.limiter.settings.storeTimeout request)).1 = false := by rwa [hlimiter']
      obtain ⟨dec, metrics, hreport, hallowed, hcount, hheard⟩ :=
        hvacant.handle_check hreach' hout' henabled' hlets'
      obtain ⟨-, hafter⟩ := Service.handle_check_status hout' hreach'.sound hreach'.now_lt
        hreach'.orderly henabled' hlets'
      rw [Limiter.RuleStatus.afterCheck_eq_map_counted
        fun entry hentry => hvacant.isFull_eq_false hreach'.sound hentry] at hafter
      rw [hlimiter', hnow] at hheard
      exact ⟨⟨dec, metrics, hreport, hallowed, hcount⟩, hheard, hafter⟩

/-! ## A history -/

namespace ResettingSample

/-- Two logins in a minute from each address. -/
def login : Rule := { Rule.basic "login" .address 2 60 with methods := ["POST"] }

/-- One search in any ten seconds, whoever asks. -/
def search : Rule :=
  { Rule.basic "search" .endpoint 1 10 with
    algorithm := .slidingWindow, endpoints := [⟨"/search", some [.literal "search"]⟩] }

/-- Five requests in a minute for each tenant. -/
def plan : Rule := Rule.basic "plan" .tenant 5 60

def settings : LimiterSettings := ⟨true, false, 50, "turnstile"⟩

def request : Request := .describe "GET" "/search" "10.0.0.1"

/-- A login and a search, and after eleven seconds a search that passes and one that does
not. -/
def commands : List Command :=
  [.check (.describe "POST" "/login" "10.0.0.1"), .check request, .advance 11000, .check request,
    .check request]

/-- A limiter that has just refused a search. -/
def service : Service :=
  ((Service.start ⟨settings, ⟨[login, search, plan]⟩, .ofConfig .empty⟩ 60000).run commands).2

/-- What a report tells of what was there. -/
def told? : Report → Option Nat
  | .removed (.ok held) => some held.toNat
  | .removedCount (.ok count) => some count
  | _ => none

end ResettingSample

open ResettingSample in
/-- The address is counted by `login` although the search is none, and the request has no
tenant: what its source names are two counters, and after they are taken back a search
passes. -/
theorem reset_takes_back_exactly_of_search :
    let s := service
    let s' := (s.handle (.resetFor [] request.source)).2
    s.handle (.reset "speed" request) =
        (.removed (.error (.rule "speed" Rule.Fault.unknownId.reason)), s) ∧
      told? (s.handle (.reset "login" request)).1 = some 1 ∧
      ((s.handle (.reset "login" request)).2.handle (.reset "login" request)).1 =
        .removed (.ok false) ∧
      told? (s.handle (.reset "plan" request)).1 = some 0 ∧
      (s.happening .none (.check request)).report.deniesBy "search" = true ∧
      told? (s.handle (.resetFor [] request.source)).1 = some 2 ∧
      told? (s.handle (.resetFor ["login"] request.source)).1 = some 1 ∧
      ∃ dec metrics, (s'.handle (.check request)).1 = .decision (.ok dec) metrics ∧
        dec.allowed = true := by
  have hbuild : RuleSet.build [login, search, plan] .empty = .ok ⟨[login, search, plan]⟩ := rfl
  have henabled : settings.enabled = true := rfl
  have hreload : ∀ command ∈ commands, command.isReload = false := by decide
  have houtage : ∀ command ∈ commands, command.setsOutage = false := by decide
  have hclock : (Clock.mk 60000).Steady commands := by decide
  obtain ⟨-, hunknown, hreset, -, hanew⟩ :=
    reset_takes_back_exactly hbuild settings (.ofConfig .empty) hreload houtage hclock
  obtain ⟨entries, -, -, -, hcheck⟩ := hanew request
  obtain ⟨⟨dec, metrics, hreport, hallowed, -⟩, -⟩ := hcheck henabled (by decide +kernel)
  refine ⟨hunknown "speed" request (by decide), by decide +kernel, ?_, by decide +kernel,
    by decide +kernel, by decide +kernel, by decide +kernel, dec, metrics, hreport, hallowed⟩
  exact (hreset login List.mem_cons_self request).2.2

end Admission
