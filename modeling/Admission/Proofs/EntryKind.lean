/-
Every stored entry is of the kind that its key promises.

The form of a key says what is to be found under it: a bucket at its end promises a fixed
counter, `sw` a sliding log, and the key of an override a marker (`Promises`). No text has
two of these forms, and a limiter makes each of its calls under a key of the form that
goes with it (`Limiter.Asks.promises`), whatever rules are in force. So an entry is only
ever replaced by one of its own kind, over any history and for any movement of the clock
(`stored_as_promised`).
-/
import Admission.Proofs.History

set_option autoImplicit false

namespace Admission

/-! ## Kinds of entries -/

/-- **What an entry can be.** -/
inductive Entry.Kind
  | fixed
  | sliding
  | marker
  deriving DecidableEq

/-- The kind of an entry. -/
def Entry.kind : Entry → Kind
  | fixed _ => .fixed
  | sliding _ => .sliding
  | marker _ => .marker

/-- **What the form of a key promises** about the entry under it. -/
inductive Promises (space : String) : String → Entry.Kind → Prop
  | bucket (ruleId : String) (dimension : Dimension) (value : String) (bucket : Nat) :
      Promises space ((CounterKey.mk ruleId dimension value (some bucket)).render space) .fixed
  | log (ruleId : String) (dimension : Dimension) (value : String) :
      Promises space ((CounterKey.mk ruleId dimension value none).render space) .sliding
  | override (dimension : Dimension) (value : String) :
      Promises space (overrideKey space dimension value) .marker

/-- **No key promises two kinds.** -/
theorem Promises.unique {space key : String} {a b : Entry.Kind} (ha : Promises space key a)
    (hb : Promises space key b) : a = b := by
  generalize hkey : key = other at hb
  cases ha with
  | bucket =>
    cases hb with
    | bucket => rfl
    | log => cases congrArg CounterKey.bucket (CounterKey.render_injective hkey)
    | override => exact absurd hkey (CounterKey.render_ne_overrideKey _ _ _ _ _)
  | log =>
    cases hb with
    | bucket => cases congrArg CounterKey.bucket (CounterKey.render_injective hkey)
    | log => rfl
    | override => exact absurd hkey (CounterKey.render_ne_overrideKey _ _ _ _ _)
  | override =>
    cases hb with
    | bucket | log => exact absurd hkey.symm (CounterKey.render_ne_overrideKey _ _ _ _ _)
    | override => rfl

/-- The kind of entry that a call leaves or looks for. Reading and removing are for any
kind. -/
def Call.kind? : Call → Option Entry.Kind
  | incrementFixed .. => some .fixed
  | incrementSliding .. => some .sliding
  | setMarker .. | hasMarker _ => some .marker
  | read _ | reset _ => none

/-- **A limiter asks for each kind under keys that promise it.** -/
theorem Limiter.Asks.promises {l : Limiter} {now : Nat} {call : Call} (h : l.Asks now call)
    {kind : Entry.Kind} (hkind : call.kind? = some kind) :
    Promises l.settings.keySpace call.key kind := by
  cases h with
  | incrementFixed _ ha =>
    cases hkind
    rw [Call.key, CounterKey.forValue, CounterKey.bucketOf, ha]
    exact .bucket _ _ _ _
  | incrementSliding _ ha =>
    cases hkind
    rw [Call.key, CounterKey.forValue, CounterKey.bucketOf, ha]
    exact .log _ _ _
  | read | reset | resetOverride => cases hkind
  | setMarker dimension value | hasMarker dimension value =>
    cases hkind
    exact .override dimension value

/-! ## Stores that keep the promises of their keys -/

namespace Store

/-- **A store that keeps the promises of its keys.** -/
def KeepsPromises (space : String) (s : Store) : Prop :=
  ∀ p ∈ s.entries, Promises space p.1 p.2.kind

variable {space : String} {now : Nat} {s t : Store}

theorem KeepsPromises.subset (h : s.KeepsPromises space) (hsub : t.entries ⊆ s.entries) :
    t.KeepsPromises space := fun p hp => h p (hsub hp)

/-- What is found under a key is of the kind that the key promises. -/
theorem KeepsPromises.kind_eq (h : s.KeepsPromises space) {key : String} {kind : Entry.Kind}
    (hkey : Promises space key kind) {e : Entry} (he : s.find? key = some e) : e.kind = kind := by
  obtain ⟨l₁, l₂, hsplit, -⟩ := List.lookup_eq_some_iff.1 he
  refine (h (key, e) ?_).unique hkey
  rw [hsplit]
  exact List.mem_append_cons_self

theorem mem_setEntry {key : String} {entry : Entry} {es : List (String × Entry)}
    {p : String × Entry} (h : p ∈ setEntry key entry es) : p = (key, entry) ∨ p ∈ es := by
  induction es with
  | nil => exact .inl (List.mem_singleton.1 h)
  | cons head rest ih =>
    rw [setEntry] at h
    split at h
    · rcases List.mem_cons.1 h with rfl | h
      · exact .inl rfl
      · exact .inr (List.mem_cons_of_mem _ h)
    · rcases List.mem_cons.1 h with rfl | h
      · exact .inr List.mem_cons_self
      · exact (ih h).imp_right (List.mem_cons_of_mem _)

theorem entries_countWrite_subset (s : Store) (now : Nat) :
    (s.countWrite now).entries ⊆ s.entries := by
  unfold countWrite
  dsimp only
  split
  · exact List.filter_subset_self _
  · exact List.Subset.refl _

theorem mem_countWrite_put {key : String} {entry : Entry} {p : String × Entry}
    (h : p ∈ ((s.put key entry).countWrite now).entries) : p = (key, entry) ∨ p ∈ s.entries :=
  mem_setEntry (entries_countWrite_subset _ now h)

/-- **What is in a store after a call** was in it before, or is an entry of the call's own
kind under the call's key. -/
theorem mem_answer {call : Call} {p : String × Entry} (h : p ∈ (s.answer now call).2.entries) :
    p ∈ s.entries ∨ p.1 = call.key ∧ call.kind? = some p.2.kind := by
  cases call with
  | incrementFixed | incrementSliding | setMarker =>
    rcases mem_countWrite_put h with rfl | h
    · exact .inr ⟨rfl, rfl⟩
    · exact .inl h
  | read | hasMarker => exact .inl h
  | reset => exact .inl (List.mem_of_mem_filter h)

/-- **A call under a key that promises its kind** keeps the promises. -/
theorem KeepsPromises.answer (h : s.KeepsPromises space) {call : Call}
    (hcall : ∀ kind, call.kind? = some kind → Promises space call.key kind) :
    (s.answer now call).2.KeepsPromises space := by
  intro p hp
  rcases mem_answer hp with hp | ⟨hkey, hkind⟩
  · exact h p hp
  · rw [hkey]
    exact hcall _ hkind

end Store

/-! ## Conversations -/

/-- **What calls preserve a conversation preserves,** up to each of its calls and to its
end. -/
theorem Interaction.invariant {α σ : Type} {answer : σ → (call : Call) → Reply call.Answer × σ}
    {I : σ → Prop} {P : Call → Prop}
    (hstep : ∀ s call, I s → P call → I (answer s call).2) {m : Interaction α} {s : σ}
    (hs : I s) (hm : ∀ x ∈ m.exchanges answer s, P x.call) :
    I (m.run answer s).2 ∧ ∀ moment ∈ m.moments answer s, I moment.1 ∧ P moment.2 := by
  induction m generalizing s with
  | done value => exact ⟨hs, List.forall_mem_nil _⟩
  | ask call next ih =>
    rw [exchanges_ask, List.forall_mem_cons] at hm
    obtain ⟨hend, hmoments⟩ := ih _ (hstep s call hs hm.1) hm.2
    exact ⟨hend, List.forall_mem_cons.2 ⟨⟨hs, hm.1⟩, hmoments⟩⟩

/-- **A disturbance that adds nothing** to the store. Outages may begin and end, the clock
may be moved, and entries may be swept away. -/
def Disturbance.AddsNothing (d : Disturbance) : Prop :=
  ∀ i b, (d i b).store.entries ⊆ b.store.entries

theorem Disturbance.addsNothing_none : none.AddsNothing := fun _ _ => List.Subset.refl _

namespace Backend

variable {d : Disturbance} {b : Backend} {space : String}

theorem keepsPromises_answerAmid (hd : d.AddsNothing) (h : b.store.KeepsPromises space)
    {call : Call} (hcall : ∀ kind, call.kind? = some kind → Promises space call.key kind) :
    (b.answerAmid d call).2.store.KeepsPromises space := by
  have hdisturbed := h.subset (hd b.calls.length b)
  rw [answerAmid]
  obtain ⟨-, ⟨-, hstore⟩ | ⟨-, hstore⟩⟩ := (d b.calls.length b).answer_cases call
  · rw [hstore]
    exact hdisturbed.answer hcall
  · rw [hstore]
    exact hdisturbed

end Backend

/-! ## Histories -/

namespace Service

variable {d : Disturbance} {s : Service}

/-- **The calls of a command,** each with the store that it meets. -/
def meetings (d : Disturbance) (s : Service) (command : Command) : List (Store × Call) :=
  match s.limiter.conversation s.now command with
  | none => []
  | some m => (m.moments (Backend.answerAmid d) s.backend).map fun moment =>
      ((d moment.1.calls.length moment.1).store, moment.2)

/-- A service whose store keeps the promises of its keys. -/
def KeepsPromises (s : Service) : Prop :=
  s.backend.store.KeepsPromises s.limiter.settings.keySpace

/-- **A conversation keeps the promises** up to each of its calls and to its end. -/
theorem KeepsPromises.conversation (h : s.KeepsPromises) (hd : d.AddsNothing)
    (hs : s.limiter.rules.Sound) {command : Command} {m : Interaction Report}
    (hm : s.limiter.conversation s.now command = some m) :
    (m.run (Backend.answerAmid d) s.backend).2.store.KeepsPromises s.limiter.settings.keySpace ∧
      ∀ moment ∈ m.moments (Backend.answerAmid d) s.backend,
        moment.1.store.KeepsPromises s.limiter.settings.keySpace ∧
          s.limiter.Asks s.now moment.2 := by
  have hasks := happening_asks (d := d) hs command
  rw [exchanges_of_conversation hm] at hasks
  exact Interaction.invariant (I := fun b : Backend => b.store.KeepsPromises _)
    (fun b call hb hcall => Backend.keepsPromises_answerAmid hd hb fun _ => hcall.promises) h hasks

/-- Each call of a command meets a store that keeps the promises. -/
theorem KeepsPromises.meetings (h : s.KeepsPromises) (hd : d.AddsNothing)
    (hs : s.limiter.rules.Sound) (command : Command) :
    ∀ meeting ∈ s.meetings d command,
      meeting.1.KeepsPromises s.limiter.settings.keySpace ∧ s.limiter.Asks s.now meeting.2 := by
  unfold Service.meetings
  split
  · exact List.forall_mem_nil _
  · rename_i m hm
    intro meeting hmeeting
    obtain ⟨moment, hmoment, rfl⟩ := List.mem_map.1 hmeeting
    obtain ⟨hstore, hasks⟩ := (h.conversation hd hs hm).2 moment hmoment
    exact ⟨hstore.subset (hd _ _), hasks⟩

/-- **A command keeps the promises,** whatever it is. -/
theorem KeepsPromises.handleAmid (h : s.KeepsPromises) (hd : d.AddsNothing)
    (hs : s.limiter.rules.Sound) (command : Command) :
    (s.handleAmid d command).2.KeepsPromises := by
  cases hm : s.limiter.conversation s.now command with
  | some m =>
    rw [handleAmid_of_conversation hm]
    exact (h.conversation hd hs hm).1
  | none =>
    rw [handleAmid_of_no_conversation hm]
    cases command with
    | check | status | reset | resetFor | addOverride | removeOverride => cases hm
    | reload rules defaults =>
      -- other rules count under other keys, but in the same key space
      rw [handle]
      cases RuleSet.build rules defaults with
      | ok set => exact h
      | error error => exact h
    | advance | setClock | setOutage => exact h
    | purge => exact Store.KeepsPromises.subset h (List.filter_subset_self _)

/-- **A history keeps the promises.** -/
theorem KeepsPromises.after (h : s.KeepsPromises) (hd : d.AddsNothing)
    (hs : s.limiter.rules.Sound) (commands : List Command) : (s.after d commands).KeepsPromises := by
  induction commands generalizing s with
  | nil => exact h
  | cons command rest ih => exact ih (h.handleAmid hd hs command) (sound_handleAmid hs command)

end Service

/-! ## The law -/

/-- **Every stored entry is of the kind that its key promises.** A limiter with rules that
could be made has served any commands, reloads with other dimensions, windows and
algorithms under the same ids among them, and its clock may have been moved in any
direction. Outages, sweeps and changes of the clock may also fall between the calls of one
command.

Then whatever is stored is a fixed counter under the key of a counter with a bucket, a
sliding log under one without, or a marker under the key of an override, and its key is
of no other form. And at any call of the next command that counts a request, or leaves or
looks for a marker, the key promises an entry of that very kind, and nothing of another
kind is there. -/
theorem stored_as_promised {rules : List Rule} {defaults : DefaultLimits} {set : RuleSet}
    (hbuild : RuleSet.build rules defaults = .ok set) (settings : LimiterSettings)
    (whitelist : Whitelist) (start : Nat) {d : Disturbance} (hd : d.AddsNothing)
    (commands : List Command) :
    let s := (Service.start ⟨settings, set, whitelist⟩ start).after d commands
    (∀ p ∈ s.backend.store.entries, Promises settings.keySpace p.1 p.2.kind ∧
      ∀ kind, Promises settings.keySpace p.1 kind → kind = p.2.kind) ∧
    ∀ command, ∀ meeting ∈ s.meetings d command, ∀ kind, meeting.2.kind? = some kind →
      Promises settings.keySpace meeting.2.key kind ∧
        ∀ e, meeting.1.find? meeting.2.key = some e → e.kind = kind := by
  have hs : set.Sound := RuleSet.sound_of_build hbuild
  intro s
  have hstart : (Service.start ⟨settings, set, whitelist⟩ start).KeepsPromises :=
    List.forall_mem_nil _
  have hkeeps : s.KeepsPromises := hstart.after hd hs commands
  have hsound : s.limiter.rules.Sound := Service.sound_after hs commands
  have hspace : s.limiter.settings.keySpace = settings.keySpace := by
    obtain ⟨current, hlimiter⟩ := Service.exists_reload_after (d := d)
      (.start ⟨settings, set, whitelist⟩ start) commands
    exact congrArg (fun l => l.settings.keySpace) hlimiter
  rw [← hspace]
  refine ⟨fun p hp => ⟨hkeeps p hp, fun kind hkind => hkind.unique (hkeeps p hp)⟩, ?_⟩
  intro command meeting hmeeting kind hkind
  obtain ⟨hstore, hasks⟩ := hkeeps.meetings hd hsound command meeting hmeeting
  have hkey := hasks.promises hkind
  exact ⟨hkey, fun e he => hstore.kind_eq hkey he⟩

/-! ## A history -/

namespace EntryKindSample

/-- A rule with the id that the keys of overrides have, and one request a minute. -/
def rule (dimension : Dimension) (algorithm : Algorithm) : Rule :=
  { Rule.basic "whitelist" dimension 1 60 with algorithm := algorithm }

def settings : LimiterSettings := ⟨true, false, 50, "turnstile"⟩

/-- A caller whose name goes on like the key of an override. -/
def request : Request :=
  (Request.describe "GET" "/search" "10.0.0.1").withCaller (some "ip:10.0.0.1")

/-- The rule changes its algorithm and its dimension, the clock goes back, and an override
is left for the caller. -/
def commands : List Command :=
  [.check request, .reload [rule .caller .slidingWindow] .empty, .check request,
    .reload [rule .address .fixedWindow] .empty, .setClock 5000, .check request,
    .addOverride .caller "ip:10.0.0.1" none]

end EntryKindSample

open EntryKindSample in
/-- Two fixed counters, a log and a marker, each under a key that promises it. -/
theorem stored_as_promised_of_whitelist :
    let s := (Service.start ⟨settings, ⟨[rule .caller .fixedWindow]⟩, ⟨[], [], [], true⟩⟩
      60000).after .none commands
    s.backend.store.entries.map (fun p => (p.1, p.2.kind)) =
        [("turnstile:whitelist:caller:ip%3A10.0.0.1:1", .fixed),
          ("turnstile:whitelist:caller:ip%3A10.0.0.1:sw", .sliding),
          ("turnstile:whitelist:ip:10.0.0.1:0", .fixed),
          ("turnstile:whitelist:caller:ip%3A10.0.0.1", .marker)] ∧
      ∀ p ∈ s.backend.store.entries, Promises "turnstile" p.1 p.2.kind := by
  have hbuild : RuleSet.build [rule .caller .fixedWindow] .empty =
      .ok ⟨[rule .caller .fixedWindow]⟩ := rfl
  have h := stored_as_promised hbuild settings ⟨[], [], [], true⟩ 60000
    Disturbance.addsNothing_none commands
  exact ⟨by decide +kernel, fun p hp => (h.1 p hp).1⟩

end Admission
