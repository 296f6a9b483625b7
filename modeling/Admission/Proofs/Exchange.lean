/-
Exchanges: the calls of a conversation together with what came back.

A conversation is followed in two halves that know nothing of each other. What the
limiter asks, given the replies, is `Interaction.Goes`: any reply may come to any
call. What a store replies, given the calls, is `Store.Serves`: a call is answered
as the store of this library answers it, or fails and leaves the store alone, and
between calls time passes and the store may be swept. A law about the limiter and a
law about the store meet in the list of exchanges.
-/
import Admission.Proofs.Cell
import Admission.Interaction

set_option autoImplicit false

namespace Admission

/-! ## Calls with their replies -/

/-- What a reply answers, if it does. -/
def Reply.answer? {α : Type} : Reply α → Option α
  | answered value => some value
  | failed _ | silent => none

/-- An answer in time is a success, and nothing else is. -/
theorem Reply.within_eq_ok_iff {α : Type} {budget : Nat} {r : Reply α} {a : α} :
    r.within budget = .ok a ↔ r.answer? = some a := by
  cases r <;> simp [Reply.within, Reply.answer?]

/-- **A call and what came back.** -/
structure Exchange where
  call : Call
  reply : Reply call.Answer

namespace Exchange

/-- Whether the call was answered. -/
def IsAnswered (x : Exchange) : Prop := x.reply.answer?.isSome

instance (x : Exchange) : Decidable x.IsAnswered :=
  inferInstanceAs (Decidable (x.reply.answer?.isSome = true))

/-- The count that an increment of a fixed window under a key was answered. -/
def fixedCount? (key : String) : Exchange → Option FixedCount
  | ⟨.incrementFixed k _, reply⟩ => if k = key then reply.answer? else none
  | _ => none

/-- The count that an attempt on a sliding window under a key was answered. -/
def slidingCount? (key : String) : Exchange → Option SlidingCount
  | ⟨.incrementSliding k _ _ _, reply⟩ => if k = key then reply.answer? else none
  | _ => none

/-- Whether something under a key was removed by the call, or at least asked to be. -/
def resets (key : String) (x : Exchange) : Prop :=
  x.call = .reset key ∧ x.IsAnswered

instance (key : String) (x : Exchange) : Decidable (x.resets key) :=
  inferInstanceAs (Decidable (x.call = .reset key ∧ x.IsAnswered))

/-- A count of a fixed window answers an increment under its key. -/
theorem call_of_fixedCount? {key : String} {x : Exchange} {c : FixedCount}
    (h : x.fixedCount? key = some c) : ∃ window, x.call = .incrementFixed key window := by
  obtain ⟨call, reply⟩ := x
  cases call with
  | incrementFixed k window =>
    rw [fixedCount?] at h
    split at h
    · rename_i hk
      exact ⟨window, by rw [hk]⟩
    · cases h
  | incrementSliding | read | reset | setMarker | hasMarker => cases h

/-- A count of a sliding window answers an attempt under its key. -/
theorem call_of_slidingCount? {key : String} {x : Exchange} {c : SlidingCount}
    (h : x.slidingCount? key = some c) :
    ∃ window limit instant, x.call = .incrementSliding key window limit instant := by
  obtain ⟨call, reply⟩ := x
  cases call with
  | incrementSliding k window limit instant =>
    rw [slidingCount?] at h
    split at h
    · rename_i hk
      exact ⟨window, limit, instant, by rw [hk]⟩
    · cases h
  | incrementFixed | read | reset | setMarker | hasMarker => cases h

/-- A call that was not answered counts nothing. -/
theorem fixedCount?_of_not_answered {key : String} {x : Exchange} (h : ¬ x.IsAnswered) :
    x.fixedCount? key = none := by
  obtain ⟨call, reply⟩ := x
  rw [IsAnswered, Option.not_isSome_iff_eq_none] at h
  cases call with
  | incrementFixed k window =>
    rw [fixedCount?]
    split
    · exact h
    · rfl
  | incrementSliding | read | reset | setMarker | hasMarker => rfl

theorem slidingCount?_of_not_answered {key : String} {x : Exchange} (h : ¬ x.IsAnswered) :
    x.slidingCount? key = none := by
  obtain ⟨call, reply⟩ := x
  rw [IsAnswered, Option.not_isSome_iff_eq_none] at h
  cases call with
  | incrementSliding k window limit instant =>
    rw [slidingCount?]
    split
    · exact h
    · rfl
  | incrementFixed | read | reset | setMarker | hasMarker => rfl

theorem fixedCount?_of_ne {key : String} {x : Exchange} (h : x.call.key ≠ key) :
    x.fixedCount? key = none := by
  rw [Option.eq_none_iff_forall_ne_some]
  intro c hc
  obtain ⟨window, hcall⟩ := call_of_fixedCount? hc
  exact h (by rw [hcall, Call.key])

theorem slidingCount?_of_ne {key : String} {x : Exchange} (h : x.call.key ≠ key) :
    x.slidingCount? key = none := by
  rw [Option.eq_none_iff_forall_ne_some]
  intro c hc
  obtain ⟨window, limit, instant, hcall⟩ := call_of_slidingCount? hc
  exact h (by rw [hcall, Call.key])

end Exchange

/-! ## What a conversation asks -/

namespace Interaction

/-- **A conversation can go through these exchanges to this end.** -/
inductive Goes {α : Type} : Interaction α → List Exchange → α → Prop
  | done (value : α) : Goes (.done value) [] value
  | ask {call : Call} {next : Reply call.Answer → Interaction α} {reply : Reply call.Answer}
      {xs : List Exchange} {value : α} (h : Goes (next reply) xs value) :
      Goes (.ask call next) (⟨call, reply⟩ :: xs) value

variable {α β σ : Type}

theorem goes_done_iff {value a : α} {xs : List Exchange} :
    (done value).Goes xs a ↔ xs = [] ∧ a = value := by
  constructor
  · rintro ⟨⟩
    exact ⟨rfl, rfl⟩
  · rintro ⟨rfl, rfl⟩
    exact .done a

theorem goes_ask_iff {call : Call} {next : Reply call.Answer → Interaction α} {a : α}
    {xs : List Exchange} :
    (ask call next).Goes xs a ↔ ∃ reply ys, xs = ⟨call, reply⟩ :: ys ∧ (next reply).Goes ys a := by
  constructor
  · rintro (_ | h)
    exact ⟨_, _, rfl, h⟩
  · rintro ⟨reply, ys, rfl, h⟩
    exact .ask h

/-- One conversation after another goes through the exchanges of both. -/
theorem goes_bind_iff {m : Interaction α} {f : α → Interaction β} {b : β} {xs : List Exchange} :
    (m.bind f).Goes xs b ↔ ∃ ys zs a, xs = ys ++ zs ∧ m.Goes ys a ∧ (f a).Goes zs b := by
  constructor
  · intro h
    -- on the first conversation, which uses up the front of the exchanges
    induction m generalizing xs with
    | done value => exact ⟨[], xs, value, rfl, .done value, h⟩
    | ask call next ih =>
      obtain ⟨reply, ys, rfl, hys⟩ := goes_ask_iff.1 h
      obtain ⟨zs, ws, a, rfl, hz, hw⟩ := ih reply hys
      exact ⟨⟨call, reply⟩ :: zs, ws, a, rfl, .ask hz, hw⟩
  · rintro ⟨ys, zs, a, rfl, hy, hz⟩
    induction hy with
    | done value => exact hz
    | ask _ ih => exact .ask (ih hz)

/-- What is made of the end of a conversation takes no further exchanges. -/
theorem goes_bind_done_iff {m : Interaction α} {f : α → β} {b : β} {xs : List Exchange} :
    (m.bind fun a => .done (f a)).Goes xs b ↔ ∃ a, m.Goes xs a ∧ b = f a := by
  rw [goes_bind_iff]
  constructor
  · rintro ⟨ys, zs, a, rfl, hy, hz⟩
    obtain ⟨rfl, rfl⟩ := goes_done_iff.1 hz
    exact ⟨a, (List.append_nil ys).symm ▸ hy, rfl⟩
  · rintro ⟨a, hm, rfl⟩
    exact ⟨xs, [], a, (List.append_nil xs).symm, hm, .done (f a)⟩

/-- The exchanges with an answering machine, in order. -/
def exchanges (answer : σ → (call : Call) → Reply call.Answer × σ) :
    Interaction α → σ → List Exchange
  | done _, _ => []
  | ask call next, s =>
    let (reply, s) := answer s call
    ⟨call, reply⟩ :: (next reply).exchanges answer s

theorem exchanges_ask (answer : σ → (call : Call) → Reply call.Answer × σ) (call : Call)
    (next : Reply call.Answer → Interaction α) (s : σ) :
    (ask call next).exchanges answer s =
      ⟨call, (answer s call).1⟩ :: (next (answer s call).1).exchanges answer (answer s call).2 := rfl

theorem run_ask (answer : σ → (call : Call) → Reply call.Answer × σ) (call : Call)
    (next : Reply call.Answer → Interaction α) (s : σ) :
    (ask call next).run answer s = (next (answer s call).1).run answer (answer s call).2 := rfl

/-- The exchanges of one conversation after another, the second of which is held from where
the first left the machine. -/
theorem exchanges_bind (answer : σ → (call : Call) → Reply call.Answer × σ) (m : Interaction α)
    (f : α → Interaction β) (s : σ) :
    (m.bind f).exchanges answer s = m.exchanges answer s ++
      (f (m.run answer s).1).exchanges answer (m.run answer s).2 := by
  induction m generalizing s with
  | done value => rfl
  | ask call next ih => simp [bind, exchanges, run, ih]

/-- A conversation that was held could go the way it went. -/
theorem goes_exchanges (answer : σ → (call : Call) → Reply call.Answer × σ) (m : Interaction α)
    (s : σ) : m.Goes (m.exchanges answer s) (m.run answer s).1 := by
  induction m generalizing s with
  | done value => exact .done value
  | ask call next ih => exact .ask (ih (answer s call).1 (answer s call).2)

end Interaction

/-- The calls of a conversation with an answering machine, each with the state of the
machine that it meets. -/
def Interaction.moments {α σ : Type} (answer : σ → (call : Call) → Reply call.Answer × σ) :
    Interaction α → σ → List (σ × Call)
  | done _, _ => []
  | ask call next, s => (s, call) :: (next (answer s call).1).moments answer (answer s call).2

/-- Every call that is made has its reply. -/
theorem Interaction.exists_exchange_of_moment {α σ : Type}
    {answer : σ → (call : Call) → Reply call.Answer × σ} {m : Interaction α} {s : σ}
    {moment : σ × Call} (h : moment ∈ m.moments answer s) :
    ∃ x ∈ m.exchanges answer s, x.call = moment.2 := by
  induction m generalizing s with
  | done value => cases h
  | ask call next ih =>
    rw [exchanges_ask]
    rcases List.mem_cons.1 h with rfl | h
    · exact ⟨_, List.mem_cons_self, rfl⟩
    · obtain ⟨x, hx, hcall⟩ := ih _ h
      exact ⟨x, List.mem_cons_of_mem _ hx, hcall⟩

/-- Every reply comes from the machine in some state. -/
theorem Interaction.exists_answer_of_mem_exchanges {α σ : Type}
    {answer : σ → (call : Call) → Reply call.Answer × σ} {m : Interaction α} {s : σ} {x : Exchange}
    (h : x ∈ m.exchanges answer s) : ∃ t, x.reply = (answer t x.call).1 := by
  induction m generalizing s with
  | done value => cases h
  | ask call next ih =>
    rw [exchanges_ask] at h
    rcases List.mem_cons.1 h with rfl | h
    · exact ⟨s, rfl⟩
    · exact ih _ h

/-! ## What a store replies -/

/-- A store that never fails, as an answering machine. -/
def Store.reply (now : Nat) (s : Store) (call : Call) : Reply call.Answer × Store :=
  (.answered (s.answer now call).1, (s.answer now call).2)

/-- **A store serves a journal** of exchanges with their times: it answers a call
or the call fails before it, and meanwhile it may be swept and time may pass. -/
inductive Store.Serves : Nat → Store → List (Nat × Exchange) → Nat → Store → Prop
  | nil {now : Nat} {s : Store} : Serves now s [] now s
  | answered {now later : Nat} {s s' : Store} {call : Call} {js : List (Nat × Exchange)}
      (h : Serves now (s.answer now call).2 js later s') :
      Serves now s ((now, ⟨call, .answered (s.answer now call).1⟩) :: js) later s'
  | refused {now later : Nat} {s s' : Store} {x : Exchange} {js : List (Nat × Exchange)}
      (hx : ¬ x.IsAnswered) (h : Serves now s js later s') :
      Serves now s ((now, x) :: js) later s'
  | swept {now later : Nat} {s s' : Store} {js : List (Nat × Exchange)}
      (h : Serves now (s.sweep now) js later s') : Serves now s js later s'
  | waited {now mid later : Nat} {s s' : Store} {js : List (Nat × Exchange)} (hle : now ≤ mid)
      (h : Serves mid s js later s') : Serves now s js later s'

namespace Store.Serves

variable {now mid later : Nat} {s s' s'' : Store} {js ks : List (Nat × Exchange)}

/-- A store that served one journal can go on with another. -/
theorem append (h₁ : Serves now s js mid s') (h₂ : Serves mid s' ks later s'') :
    Serves now s (js ++ ks) later s'' := by
  induction h₁ with
  | nil => exact h₂
  | answered _ ih => exact .answered (ih h₂)
  | refused hx _ ih => exact .refused hx (ih h₂)
  | swept _ ih => exact .swept (ih h₂)
  | waited hle _ ih => exact .waited hle (ih h₂)

/-- Time does not run back while a store serves. -/
theorem le (h : Serves now s js later s') : now ≤ later := by
  induction h with
  | nil => exact le_rfl
  | answered _ ih | refused _ _ ih | swept _ ih => exact ih
  | waited hle _ ih => exact hle.trans ih

/-- Serving brings no key in twice. -/
theorem distinct (h : Serves now s js later s') (hd : s.Distinct) : s'.Distinct := by
  induction h with
  | nil => exact hd
  | answered _ ih => exact ih (hd.answer _ _)
  | refused _ _ ih => exact ih hd
  | swept _ ih => exact ih (hd.sweep _)
  | waited _ _ ih => exact ih hd

/-- **Around an answered exchange:** the journal before it leads to the store that answers
it, and the journal behind it goes on from there. -/
theorem split {n : Nat} {x : Exchange} (h : Serves now s (js ++ (n, x) :: ks) later s'')
    (hx : x.IsAnswered) :
    ∃ u, Serves now s js n u ∧ x.reply = .answered (u.answer n x.call).1 ∧
      Serves n (u.answer n x.call).2 ks later s'' := by
  generalize hjournal : js ++ (n, x) :: ks = journal at h
  induction h generalizing js with
  | nil => exact absurd hjournal (by simp)
  | @answered now _ s _ call rest h ih =>
    cases js with
    | nil =>
      rw [List.nil_append, List.cons.injEq, Prod.mk.injEq] at hjournal
      obtain ⟨⟨rfl, rfl⟩, rfl⟩ := hjournal
      exact ⟨s, .nil, rfl, h⟩
    | cons j js =>
      rw [List.cons_append, List.cons.injEq] at hjournal
      obtain ⟨rfl, hrest⟩ := hjournal
      obtain ⟨u, hbefore, hreply, hbehind⟩ := ih hrest
      exact ⟨u, .answered hbefore, hreply, hbehind⟩
  | refused hy h ih =>
    cases js with
    | nil =>
      rw [List.nil_append, List.cons.injEq, Prod.mk.injEq] at hjournal
      obtain ⟨⟨-, rfl⟩, -⟩ := hjournal
      exact absurd hx hy
    | cons j js =>
      rw [List.cons_append, List.cons.injEq] at hjournal
      obtain ⟨rfl, hrest⟩ := hjournal
      obtain ⟨u, hbefore, hreply, hbehind⟩ := ih hrest
      exact ⟨u, .refused hy hbefore, hreply, hbehind⟩
  | swept _ ih =>
    obtain ⟨u, hbefore, hreply, hbehind⟩ := ih hjournal
    exact ⟨u, .swept hbefore, hreply, hbehind⟩
  | waited hle _ ih =>
    obtain ⟨u, hbefore, hreply, hbehind⟩ := ih hjournal
    exact ⟨u, .waited hle hbefore, hreply, hbehind⟩

/-- **A journal in which a key is looked at, but not written,** lets the cell fade at most. -/
theorem fades {key : String} (h : Serves now s js later s') (hd : s.Distinct)
    (hjs : ∀ j ∈ js, j.2.call.key ≠ key ∨ j.2.call = .hasMarker key) :
    Fades later (s.find? key) (s'.find? key) := by
  induction h with
  | nil => exact .refl _ _
  | @answered now later s s' call js h ih =>
    rw [List.forall_mem_cons] at hjs
    refine Fades.trans ?_ (ih (hd.answer _ _) hjs.2)
    rcases hjs.1 with hne | hlooks
    · exact (fades_answer_of_ne hd now hne).later h.le
    · dsimp only at hlooks
      rw [hlooks]
      exact .refl _ _
  | refused _ _ ih => exact ih hd (List.forall_mem_cons.1 hjs).2
  | @swept now later s s' js h ih =>
    exact ((fades_sweep hd now key).later h.le).trans (ih (hd.sweep now) hjs)
  | waited _ _ ih => exact ih hd hjs

end Store.Serves

/-! ## Laws of a cell -/

/-- **A law of a cell that lasts:** it holds up when the cell fades and as time passes. -/
structure Lasting (C : Nat → Option Entry → Prop) : Prop where
  fades : ∀ {now : Nat} {cell after : Option Entry}, now < Word.max → C now cell →
    Fades now cell after → C now after
  later : ∀ {now later : Nat} {cell : Option Entry}, now ≤ later → C now cell → C later cell

/-- Nothing comes alive by itself. -/
theorem lasting_faded : Lasting Faded where
  fades := fun _ h hf => hf.faded h
  later := fun hle h => h.later hle

/-- **A lasting law holds over a journal** if every call under the key keeps it. -/
theorem Store.Serves.keeps {C : Nat → Option Entry → Prop} (hlasting : Lasting C)
    {now later : Nat} {s s' : Store} {js : List (Nat × Exchange)} {key : String}
    (h : Serves now s js later s') (hd : s.Distinct) (hlater : later < Word.max)
    (hjs : ∀ j ∈ js, j.2.IsAnswered → j.2.call.key = key → ∀ u : Store, u.Distinct →
      j.1 < Word.max → C j.1 (u.find? key) → C j.1 ((u.answer j.1 j.2.call).2.find? key))
    (hcell : C now (s.find? key)) : C later (s'.find? key) := by
  induction h with
  | nil => exact hcell
  | @answered now _ s _ call _ hrest ih =>
    rw [List.forall_mem_cons] at hjs
    have hnow : now < Word.max := hrest.le.trans_lt hlater
    refine ih (hd.answer now call) hlater hjs.2 ?_
    by_cases hkey : call.key = key
    · exact hjs.1 rfl hkey s hd hnow hcell
    · exact hlasting.fades hnow hcell (fades_answer_of_ne hd now hkey)
  | refused _ _ ih =>
    rw [List.forall_mem_cons] at hjs
    exact ih hd hlater hjs.2 hcell
  | @swept now _ s _ _ hrest ih =>
    have hnow : now < Word.max := hrest.le.trans_lt hlater
    exact ih (hd.sweep now) hlater hjs (hlasting.fades hnow hcell (fades_sweep hd now key))
  | waited hle _ ih => exact ih hd hlater hjs (hlasting.later hle hcell)

end Admission
