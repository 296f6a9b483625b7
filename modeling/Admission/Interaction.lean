/-
Decisions as conversations with a counter store.

An `Interaction` either is finished or makes one call and goes on with the reply.
It says nothing about who answers: `Interaction.run` lets any answering machine
do it, one call at a time, and keeps that machine's state. A reply may also be a
failure, or never come.
-/
import Admission.Error
import Admission.Store.Call

set_option autoImplicit false

namespace Admission

/-! ## Replies -/

/-- **What comes back from a call.** -/
inductive Reply (α : Type)
  | answered (value : α)
  | failed (error : Error)
  /-- nothing comes back, however long one waits -/
  | silent

/-- A reply awaited for so many milliseconds: silence becomes a timeout. -/
def Reply.within {α : Type} (budget : Nat) : Reply α → Except Error α
  | answered value => .ok value
  | failed error => .error error
  | silent => .error (.storeTimeout budget)

/-! ## Interactions -/

/-- **A conversation with a counter store** that ends in a value. -/
inductive Interaction (α : Type)
  | done (value : α)
  | ask (call : Call) (next : Reply call.Answer → Interaction α)

namespace Interaction

/-- One conversation after another. -/
def bind {α β : Type} : Interaction α → (α → Interaction β) → Interaction β
  | done value, f => f value
  | ask call next, f => ask call fun reply => (next reply).bind f

instance : Monad Interaction where
  pure := done
  bind := bind

/-- A single call. -/
def request (call : Call) : Interaction (Reply call.Answer) := ask call done

/-- A single call that is given up after `budget` milliseconds. -/
def requestWithin (budget : Nat) (call : Call) : Interaction (Except Error call.Answer) :=
  ask call fun reply => done (reply.within budget)

/-- **A conversation held with an answering machine,** which sees the calls in
order. -/
def run {α σ : Type} (answer : σ → (call : Call) → Reply call.Answer × σ) :
    Interaction α → σ → α × σ
  | done value, s => (value, s)
  | ask call next, s =>
    let (reply, s) := answer s call
    (next reply).run answer s

theorem bind_done {α : Type} (m : Interaction α) : m.bind done = m := by
  induction m with
  | done value => rfl
  | ask call next ih => simp [bind, ih]

theorem bind_assoc {α β γ : Type} (m : Interaction α) (f : α → Interaction β)
    (g : β → Interaction γ) : (m.bind f).bind g = m.bind fun a => (f a).bind g := by
  induction m with
  | done value => rfl
  | ask call next ih => simp [bind, ih]

/-- Running one conversation after another is running the second from where the
first left the machine. -/
theorem run_bind {α β σ : Type} (answer : σ → (call : Call) → Reply call.Answer × σ)
    (m : Interaction α) (f : α → Interaction β) (s : σ) :
    (m.bind f).run answer s = (f (m.run answer s).1).run answer (m.run answer s).2 := by
  induction m generalizing s with
  | done value => rfl
  | ask call next ih => simp [bind, run, ih]

end Interaction

end Admission
