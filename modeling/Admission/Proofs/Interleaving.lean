/-
Conversations in flight.

Several conversations are held with one store at the same time. A call is answered as a
whole, but between two calls of one conversation there may come any calls of the others;
a schedule says whose turn it is (`Flight.run`). What happens is read twice, like a
history: each conversation is led by its own exchanges and knows nothing of the others
(`Flight.leads_run`), and the store answers all of them one after another and knows
nothing of who asks (`Flight.answers_run`). No schedule is a dead end
(`Flight.exists_finished`).
-/
import Admission.Proofs.Exchange

set_option autoImplicit false

namespace Admission

/-! ## Half of a conversation -/

namespace Interaction

variable {α : Type} {m m' m'' : Interaction α} {xs ys : List Exchange}

/-- **A conversation can be led by these exchanges** to where this is left of it. -/
inductive Leads {α : Type} : Interaction α → List Exchange → Interaction α → Prop
  | here (m : Interaction α) : Leads m [] m
  | ask {call : Call} {next : Reply call.Answer → Interaction α} {reply : Reply call.Answer}
      {xs : List Exchange} {m : Interaction α} (h : Leads (next reply) xs m) :
      Leads (.ask call next) (⟨call, reply⟩ :: xs) m

theorem Leads.trans (h₁ : m.Leads xs m') (h₂ : m'.Leads ys m'') : m.Leads (xs ++ ys) m'' := by
  induction h₁ with
  | here => exact h₂
  | ask _ ih => exact .ask (ih h₂)

/-- A finished conversation leads nowhere. -/
theorem Leads.of_done {value : α} (h : (done value).Leads xs m) : xs = [] ∧ m = done value := by
  cases h
  exact ⟨rfl, rfl⟩

theorem Leads.goes {value : α} (h : m.Leads xs m') (hm : m'.Goes ys value) :
    m.Goes (xs ++ ys) value := by
  induction h with
  | here => exact hm
  | ask _ ih => exact .ask (ih hm)

/-- Every conversation comes to an end, even if no reply ever comes. -/
theorem exists_goes (m : Interaction α) : ∃ xs value, m.Goes xs value := by
  induction m with
  | done value => exact ⟨[], value, .done value⟩
  | ask call next ih =>
    obtain ⟨xs, value, h⟩ := ih .silent
    exact ⟨_, value, .ask h⟩

/-- What half of a conversation asks, some whole one asks too. -/
theorem Leads.exists_goes (h : m.Leads xs m') : ∃ ys value, m.Goes (xs ++ ys) value := by
  obtain ⟨ys, value, hm⟩ := m'.exists_goes
  exact ⟨ys, value, h.goes hm⟩

/-- The value of a conversation, once it is finished. -/
def value? : Interaction α → Option α
  | done value => some value
  | ask .. => none

theorem eq_done_of_value? {value : α} (h : m.value? = some value) : m = done value := by
  cases m with
  | done => exact congrArg done (Option.some.inj h)
  | ask => cases h

end Interaction

/-! ## Calls one after another -/

/-- **A store answers calls one after another,** at one time. -/
inductive Store.Answers (now : Nat) : Store → List Exchange → Store → Prop
  | nil {s : Store} : Answers now s [] s
  | cons {s s' : Store} {call : Call} {xs : List Exchange}
      (h : Answers now (s.answer now call).2 xs s') :
      Answers now s (⟨call, .answered (s.answer now call).1⟩ :: xs) s'

namespace Store.Answers

variable {now : Nat} {s s' s'' : Store} {xs ys : List Exchange}

theorem append (h₁ : Answers now s xs s') (h₂ : Answers now s' ys s'') :
    Answers now s (xs ++ ys) s'' := by
  induction h₁ with
  | nil => exact h₂
  | cons _ ih => exact .cons (ih h₂)

theorem isAnswered (h : Answers now s xs s') : ∀ x ∈ xs, x.IsAnswered := by
  induction h with
  | nil => exact List.forall_mem_nil _
  | cons _ ih => exact List.forall_mem_cons.2 ⟨rfl, ih⟩

/-- Answering is a way of serving. -/
theorem serves (h : Answers now s xs s') : Serves now s (xs.map (now, ·)) now s' := by
  induction h with
  | nil => exact .nil
  | cons _ ih => exact .answered ih

end Store.Answers

/-! ## Flights -/

/-- **Conversations in flight:** the store they are held with, and what is left of each
of them. -/
structure Flight (α : Type) where
  store : Store
  threads : List (Interaction α)

namespace Flight

variable {α : Type} {i : Nat}

/-- **One turn:** the conversation makes its next call, if it has one. -/
def step (now : Nat) (f : Flight α) (i : Nat) : List (Nat × Exchange) × Flight α :=
  match f.threads[i]? with
  | some (.ask call next) =>
    let (answer, store) := f.store.answer now call
    ([(i, ⟨call, .answered answer⟩)], ⟨store, f.threads.set i (next (.answered answer))⟩)
  | _ => ([], f)

/-- **What comes of a schedule:** the exchanges, each with the number of the conversation
it belongs to, and what is in flight afterwards. -/
def run (now : Nat) (f : Flight α) : List Nat → List (Nat × Exchange) × Flight α
  | [] => ([], f)
  | i :: rest =>
    let (xs, f) := f.step now i
    let (ys, f) := f.run now rest
    (xs ++ ys, f)

/-- The exchanges of one conversation. -/
def own (i : Nat) (transcript : List (Nat × Exchange)) : List Exchange :=
  (transcript.filter (·.1 == i)).map Prod.snd

/-- Whether every conversation is finished. -/
def finished (f : Flight α) : Bool := f.threads.all (·.value?.isSome)

theorem run_cons (now : Nat) (f : Flight α) (i : Nat) (rest : List Nat) :
    f.run now (i :: rest) = ((f.step now i).1 ++ ((f.step now i).2.run now rest).1,
      ((f.step now i).2.run now rest).2) := rfl

theorem run_append (now : Nat) (f : Flight α) (first second : List Nat) :
    (f.run now (first ++ second)).2 = ((f.run now first).2.run now second).2 := by
  induction first generalizing f with
  | nil => rfl
  | cons i rest ih =>
    rw [List.cons_append, run_cons, run_cons]
    exact ih _

theorem own_append (i : Nat) (first second : List (Nat × Exchange)) :
    own i (first ++ second) = own i first ++ own i second := by
  rw [own, List.filter_append, List.map_append, own, own]

theorem mem_own {transcript : List (Nat × Exchange)} {x : Exchange} :
    x ∈ own i transcript ↔ (i, x) ∈ transcript := by
  simp [own]

/-- **A turn is a call,** or nothing. -/
theorem step_cases (now : Nat) (f : Flight α) (i : Nat) :
    f.step now i = ([], f) ∨ ∃ call next, f.threads[i]? = some (.ask call next) ∧
      f.step now i = ([(i, ⟨call, .answered (f.store.answer now call).1⟩)],
        ⟨(f.store.answer now call).2,
          f.threads.set i (next (.answered (f.store.answer now call).1))⟩) := by
  unfold step
  split
  · rename_i call next hthread
    exact .inr ⟨call, next, hthread, rfl⟩
  · exact .inl rfl

/-! ### The conversations -/

theorem length_threads_step (now : Nat) (f : Flight α) (i : Nat) :
    (f.step now i).2.threads.length = f.threads.length := by
  rcases f.step_cases now i with h | ⟨call, next, -, h⟩
  · rw [h]
  · rw [h, List.length_set]

theorem length_threads_run (now : Nat) (f : Flight α) (schedule : List Nat) :
    (f.run now schedule).2.threads.length = f.threads.length := by
  induction schedule generalizing f with
  | nil => rfl
  | cons i rest ih =>
    rw [run_cons]
    exact (ih _).trans (length_threads_step now f i)

/-- Every exchange belongs to one of the conversations. -/
theorem lt_of_mem_run {now : Nat} {f : Flight α} {schedule : List Nat} {x : Nat × Exchange}
    (hx : x ∈ (f.run now schedule).1) : x.1 < f.threads.length := by
  induction schedule generalizing f with
  | nil => cases hx
  | cons i rest ih =>
    rw [run_cons] at hx
    rcases List.mem_append.1 hx with hx | hx
    · rcases f.step_cases now i with h | ⟨call, next, hthread, h⟩
      · rw [h] at hx
        cases hx
      · rw [h, List.mem_singleton] at hx
        rw [hx]
        exact (List.getElem?_eq_some_iff.1 hthread).1
    · rw [← length_threads_step now f i]
      exact ih hx

/-- A turn leads the conversation whose turn it is. -/
theorem leads_step (now : Nat) {f : Flight α} {m : Interaction α} (hm : f.threads[i]? = some m)
    (j : Nat) :
    ∃ m', (f.step now j).2.threads[i]? = some m' ∧ m.Leads (own i (f.step now j).1) m' := by
  rcases f.step_cases now j with h | ⟨call, next, hthread, h⟩
  · rw [h]
    exact ⟨m, hm, .here m⟩
  · rw [h]
    by_cases hij : j = i
    · subst hij
      rw [hthread, Option.some.injEq] at hm
      subst hm
      have hlt : j < f.threads.length := (List.getElem?_eq_some_iff.1 hthread).1
      exact ⟨_, List.getElem?_set_self hlt, by simpa [own] using .ask (.here _)⟩
    · exact ⟨m, (List.getElem?_set_ne hij).trans hm, by simpa [own, hij] using .here m⟩

/-- **Each conversation is led by its own exchanges.** -/
theorem leads_run (now : Nat) {f : Flight α} {m : Interaction α} (hm : f.threads[i]? = some m)
    (schedule : List Nat) :
    ∃ m', (f.run now schedule).2.threads[i]? = some m' ∧
      m.Leads (own i (f.run now schedule).1) m' := by
  induction schedule generalizing f m with
  | nil => exact ⟨m, hm, .here m⟩
  | cons j rest ih =>
    obtain ⟨mid, hmid, hfirst⟩ := leads_step now hm j
    obtain ⟨m', hm', hrest⟩ := ih hmid
    rw [run_cons, own_append]
    exact ⟨m', hm', hfirst.trans hrest⟩

/-! ### The store -/

/-- **The store answers all exchanges** in the order of the schedule. -/
theorem answers_run (now : Nat) (f : Flight α) (schedule : List Nat) :
    Store.Answers now f.store ((f.run now schedule).1.map Prod.snd)
      (f.run now schedule).2.store := by
  induction schedule generalizing f with
  | nil => exact .nil
  | cons i rest ih =>
    have hrest := ih (f.step now i).2
    rw [run_cons, List.map_append]
    refine Store.Answers.append ?_ hrest
    rcases f.step_cases now i with h | ⟨call, next, -, h⟩
    · rw [h]
      exact .nil
    · rw [h]
      exact .cons .nil

/-! ### The end -/

/-- What is finished stays finished. -/
theorem getElem?_run_of_done (now : Nat) {f : Flight α} {value : α}
    (h : f.threads[i]? = some (.done value)) (schedule : List Nat) :
    (f.run now schedule).2.threads[i]? = some (.done value) := by
  obtain ⟨m', hm', hleads⟩ := leads_run now h schedule
  rw [hm', hleads.of_done.2]

/-- A conversation is finished if it has all the turns it takes. -/
theorem exists_done (now : Nat) {f : Flight α} {m : Interaction α} (hm : f.threads[i]? = some m) :
    ∃ schedule value, (f.run now schedule).2.threads[i]? = some (.done value) := by
  induction m generalizing f with
  | done value => exact ⟨[], value, hm⟩
  | ask call next ih =>
    obtain ⟨hlt, -⟩ := List.getElem?_eq_some_iff.1 hm
    have hstep : (f.step now i).2.threads[i]? =
        some (next (.answered (f.store.answer now call).1)) := by
      rw [step, hm]
      exact List.getElem?_set_self hlt
    obtain ⟨schedule, value, hdone⟩ := ih _ hstep
    exact ⟨i :: schedule, value, hdone⟩

/-- **No schedule is a dead end:** from wherever it leads, all conversations can be
finished. -/
theorem exists_finished (now : Nat) (f : Flight α) :
    ∃ schedule, (f.run now schedule).2.finished = true := by
  -- one conversation after another, since the finished ones stay as they are
  have hfirst : ∀ n ≤ f.threads.length, ∃ schedule, ∀ i < n, ∃ value,
      (f.run now schedule).2.threads[i]? = some (.done value) := by
    intro n hn
    induction n with
    | zero => exact ⟨[], fun i hi => absurd hi (Nat.not_lt_zero i)⟩
    | succ n ih =>
      obtain ⟨schedule, hschedule⟩ := ih (Nat.le_of_succ_le hn)
      have hlt : n < (f.run now schedule).2.threads.length := by
        rw [length_threads_run]
        omega
      obtain ⟨more, value, hmore⟩ := exists_done now (List.getElem?_eq_getElem hlt)
      refine ⟨schedule ++ more, ?_⟩
      intro i hi
      rw [run_append]
      by_cases hin : i = n
      · exact ⟨value, hin ▸ hmore⟩
      · obtain ⟨value', hvalue⟩ := hschedule i (by omega)
        exact ⟨value', getElem?_run_of_done now hvalue more⟩
  obtain ⟨schedule, hall⟩ := hfirst f.threads.length le_rfl
  refine ⟨schedule, ?_⟩
  rw [finished, List.all_eq_true]
  intro m hm
  obtain ⟨i, hi, rfl⟩ := List.getElem_of_mem hm
  rw [length_threads_run] at hi
  obtain ⟨value, hvalue⟩ := hall i hi
  rw [List.getElem?_eq_some_iff] at hvalue
  obtain ⟨_, hvalue⟩ := hvalue
  rw [hvalue]
  rfl

/-! ### Counting -/

/-- Counting among all exchanges is counting in each conversation. -/
theorem countP_eq_sum_own {n : Nat} {transcript : List (Nat × Exchange)}
    (h : ∀ x ∈ transcript, x.1 < n) (q : Exchange → Bool) :
    transcript.countP (fun x => q x.2) = ∑ i ∈ Finset.range n, (own i transcript).countP q := by
  induction transcript with
  | nil => simp [own]
  | cons x rest ih =>
    obtain ⟨j, x⟩ := x
    rw [List.forall_mem_cons] at h
    have hown : ∀ i, (own i ((j, x) :: rest)).countP q =
        (own i rest).countP q + if j = i then (if q x then 1 else 0) else 0 := by
      intro i
      by_cases hij : j = i
      · simp [own, hij, List.countP_cons]
      · simp [own, hij]
    have hmem : j ∈ Finset.range n := Finset.mem_range.2 h.1
    simp only [hown, Finset.sum_add_distrib, Finset.sum_ite_eq, if_pos hmem]
    rw [List.countP_cons, ih h.2]

/-- **Conversations counted by their exchanges:** if each of them has one such exchange
or none, according to `p`, then there are as many exchanges as conversations. -/
theorem countP_eq_countP_range {n : Nat} {transcript : List (Nat × Exchange)}
    (h : ∀ x ∈ transcript, x.1 < n) {q : Exchange → Bool} {p : Nat → Bool}
    (hp : ∀ i < n, (own i transcript).countP q = if p i then 1 else 0) :
    transcript.countP (fun x => q x.2) = (List.range n).countP p := by
  have hsum : ∀ k ≤ n, ∑ i ∈ Finset.range k, (own i transcript).countP q =
      (List.range k).countP p := by
    intro k hk
    induction k with
    | zero => rfl
    | succ k ih =>
      rw [Finset.sum_range_succ, ih (Nat.le_of_succ_le hk), hp k hk, List.range_succ,
        List.countP_append, List.countP_singleton]
  rw [countP_eq_sum_own h, hsum n le_rfl]

end Flight

end Admission
