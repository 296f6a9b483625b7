/-
The periods of a fixed-window counter.

An increment that finds nothing alive under its key opens a period, which ends one window later.
While it lasts, increments go on counting, whatever windows they bring along; once it has ended,
the next increment opens another one, whether the old counter is still there or was swept. The
invariant is `Chronicled`: the increments so far divide into periods, and what stands in the cell is
the count of the period that lasts, or nothing alive. Each part of the traffic keeps it
(`Chronicled.step`), so any traffic does (`Chronicled.run`).
-/
import Admission.Proofs.Cell

set_option autoImplicit false

namespace Admission

/-! ## Traffic -/

/-- **What comes to a store while one key is only counted in and read:** increments of the key,
each with a window of its own, readings of it, whatever calls about other keys, and sweeps. -/
inductive Traffic (key : String)
  | increment (window : Nat)
  | read
  | elsewhere (call : Call) (h : call.key ≠ key)
  | purge

/-- **An increment as it was answered.** -/
structure Increment where
  now : Nat
  window : Nat
  answer : FixedCount
  deriving DecidableEq

namespace Traffic

variable {key : String}

/-- The store after something has come to it. -/
def store (s : Store) (now : Nat) : Traffic key → Store
  | increment window => (s.incrementFixed now key window).2
  | read => (s.answer now (.read key)).2
  | elsewhere call _ => (s.answer now call).2
  | purge => (s.purge now).2

/-- The increment of the key that it is, if it is one, with its answer. -/
def increment? (s : Store) (now : Nat) : Traffic key → Option Increment
  | increment window => some ⟨now, window, (s.incrementFixed now key window).1⟩
  | read | elsewhere .. | purge => none

/-- The store after some traffic, each part of which comes at a time. -/
def storeAfter (s : Store) : List (Nat × Traffic key) → Store
  | [] => s
  | (now, step) :: rest => storeAfter (step.store s now) rest

/-- The increments of the key meanwhile, in order. -/
def increments (s : Store) : List (Nat × Traffic key) → List Increment
  | [] => []
  | (now, step) :: rest => (step.increment? s now).toList ++ increments (step.store s now) rest

theorem distinct_store {s : Store} (hd : s.Distinct) (now : Nat) (step : Traffic key) :
    (step.store s now).Distinct := by
  cases step with
  | increment window => exact hd.answer now (.incrementFixed key window)
  | read => exact hd
  | elsewhere call _ => exact hd.answer now call
  | purge => exact hd.sweep now

/-- What is no increment of the key lets its cell fade at most. -/
theorem fades_store {s : Store} (hd : s.Distinct) {now : Nat} {step : Traffic key}
    (hstep : step.increment? s now = none) :
    Fades now (s.find? key) ((step.store s now).find? key) := by
  cases step with
  | increment window => cases hstep
  | read => exact .refl _ _
  | elsewhere call hne => exact Store.fades_answer_of_ne hd now hne
  | purge => exact Store.fades_sweep hd now key

end Traffic

/-! ## Periods -/

/-- **A period of a counter:** the increment that opened it and those that were counted in it
later. -/
structure Period where
  opening : Increment
  further : List Increment
  deriving DecidableEq

namespace Period

/-- All increments of a period. -/
def uses (p : Period) : List Increment := p.opening :: p.further

/-- **When a period ends:** one window of its opening after its opening, or at the end of time. -/
def ends (p : Period) : Nat := Word.clamp (p.opening.now + p.opening.window)

/-- **A period as it should be.** Its increments counted from one on. Each was told the time until
the end of the period, and came before that end; only a period that was opened without a window is
over at once and has no more than its opening. -/
structure Regular (p : Period) : Prop where
  counts : p.uses.map (·.answer.count) = List.range' 1 p.uses.length
  ttl : ∀ u ∈ p.uses, u.answer.ttl = p.ends - u.now
  lasts : 0 < p.opening.window → ∀ u ∈ p.uses, u.now < p.ends ∧ 0 < u.answer.ttl
  windowless : p.opening.window = 0 → p.further = []

/-- A period with one more increment. -/
def extend (p : Period) (u : Increment) : Period := { p with further := p.further ++ [u] }

theorem uses_extend (p : Period) (u : Increment) : (p.extend u).uses = p.uses ++ [u] := rfl

/-- A period that has just been opened. -/
theorem regular_opened {now : Nat} (hnow : now < Word.max) (window : Nat) :
    Regular ⟨⟨now, window, ⟨1, Word.clamp (now + window) - now⟩⟩, []⟩ where
  counts := rfl
  ttl := by
    intro u hu
    cases List.mem_singleton.1 hu
    rfl
  lasts := by
    intro hwindow u hu
    cases List.mem_singleton.1 hu
    dsimp only at hwindow
    have hlasts : now < Word.clamp (now + window) := by
      unfold Word.clamp
      omega
    exact ⟨hlasts, Nat.sub_pos_of_lt hlasts⟩
  windowless := fun _ => rfl

/-- A period goes on when it counts an increment before its end. -/
theorem Regular.extend {p : Period} (h : p.Regular) {now : Nat} (hopened : p.opening.now ≤ now)
    (hlasts : now < p.ends) (window : Nat) :
    (p.extend ⟨now, window, ⟨p.uses.length + 1, p.ends - now⟩⟩).Regular where
  counts := by
    rw [uses_extend, List.map_append, h.counts, List.length_append, List.length_singleton,
      List.range'_1_concat, Nat.add_comm 1]
    rfl
  ttl := by
    rw [uses_extend]
    exact List.forall_mem_append.2 ⟨h.ttl, List.forall_mem_singleton.2 rfl⟩
  lasts := by
    intro hwindow
    rw [uses_extend]
    exact List.forall_mem_append.2
      ⟨h.lasts hwindow, List.forall_mem_singleton.2 ⟨hlasts, Nat.sub_pos_of_lt hlasts⟩⟩
  windowless := by
    -- without a window the period would have ended by now
    intro hwindow
    have hwindow' : p.opening.window = 0 := hwindow
    have hended : p.ends ≤ p.opening.now := by
      rw [ends, hwindow', Nat.add_zero]
      exact Nat.min_le_left _ _
    omega

/-- No increment is counted higher than the number of increments. -/
theorem Regular.count_le {p : Period} (h : p.Regular) {u : Increment} (hu : u ∈ p.uses) :
    u.answer.count ≤ p.uses.length := by
  have hmem : u.answer.count ∈ List.range' 1 p.uses.length :=
    h.counts ▸ List.mem_map_of_mem hu
  rw [List.mem_range'_1] at hmem
  omega

end Period

/-! ## What the cell tells of the periods -/

/-- **The increments of a key until now, in periods.** They make up regular periods, one after the
other. While one of them lasts its count is what stands in the cell; else nothing alive does. -/
structure Chronicled (now : Nat) (cell : Option Entry) (done : List Increment)
    (periods : List Period) : Prop where
  uses : periods.flatMap Period.uses = done
  regular : ∀ p ∈ periods, p.Regular
  apart : periods.Pairwise fun p q => p.ends ≤ q.opening.now
  opened : ∀ p ∈ periods, p.opening.now ≤ now
  lasting : ∀ p ∈ periods, now < p.ends → cell = some (.fixed ⟨p.uses.length, p.ends⟩)
  ended : (∀ p ∈ periods, p.ends ≤ now) → Faded now cell

namespace Chronicled

variable {now next : Nat} {cell after : Option Entry} {done : List Increment}
  {periods : List Period}

/-- Where nothing alive stands, no increment need have been. -/
theorem nil (h : Faded now cell) : Chronicled now cell [] [] where
  uses := rfl
  regular := nofun
  apart := .nil
  opened := nofun
  lasting := nofun
  ended := fun _ => h

/-- Fading takes nothing from a period that lasts. -/
theorem fades (h : Chronicled now cell done periods) (hf : Fades now cell after) :
    Chronicled now after done periods where
  uses := h.uses
  regular := h.regular
  apart := h.apart
  opened := h.opened
  lasting := by
    intro p hp hlasts
    rw [h.lasting p hp hlasts] at hf
    exact hf.eq_of_alive (FixedCounter.isExpired_eq_false hlasts)
  ended := fun hended => hf.faded (h.ended hended)

/-- As time passes, the period that lasts goes on or ends. -/
theorem later (h : Chronicled now cell done periods) (hle : now ≤ next) :
    Chronicled next cell done periods where
  uses := h.uses
  regular := h.regular
  apart := h.apart
  opened := fun p hp => (h.opened p hp).trans hle
  lasting := fun p hp hlasts => h.lasting p hp (hle.trans_lt hlasts)
  ended := by
    intro hended
    by_cases hover : ∀ p ∈ periods, p.ends ≤ now
    · exact (h.ended hover).later hle
    · push Not at hover
      obtain ⟨p, hp, hlasts⟩ := hover
      rw [h.lasting p hp hlasts]
      exact faded_some (decide_eq_true (hended p hp))

/-- Only the latest period can last. -/
theorem exists_latest (h : Chronicled now cell done periods) {p : Period} (hp : p ∈ periods)
    (hlasts : now < p.ends) : ∃ earlier, periods = earlier ++ [p] := by
  obtain ⟨earlier, further, rfl⟩ := List.append_of_mem hp
  cases further with
  | nil => exact ⟨earlier, rfl⟩
  | cons q rest =>
    -- a later one would have been opened by now, and not before this one ended
    have hafter : p.ends ≤ q.opening.now :=
      List.rel_of_pairwise_cons (List.pairwise_append.1 h.apart).2.1 List.mem_cons_self
    have hbefore : q.opening.now ≤ now :=
      h.opened q (List.mem_append_right _ (List.mem_cons_of_mem _ List.mem_cons_self))
    omega

/-- The latest period is replaced by one that goes on. -/
theorem goOn {earlier : List Period} {p : Period} (h : Chronicled now cell done (earlier ++ [p]))
    (hlasts : now < p.ends) (window : Nat)
    (hafter : after = some (.fixed ⟨p.uses.length + 1, p.ends⟩)) :
    let u : Increment := ⟨now, window, ⟨p.uses.length + 1, p.ends - now⟩⟩
    Chronicled now after (done ++ [u]) (earlier ++ [p.extend u]) := by
  intro u
  have hp : p ∈ earlier ++ [p] := List.mem_append_right _ List.mem_cons_self
  obtain ⟨hearlier, -, hbefore⟩ := List.pairwise_append.1 h.apart
  have hover : ∀ q ∈ earlier, q.ends ≤ now :=
    fun q hq => (hbefore q hq p List.mem_cons_self).trans (h.opened p hp)
  refine { uses := ?uses, regular := ?regular, apart := ?apart, opened := ?opened,
           lasting := ?lasting, ended := ?ended }
  case uses =>
    rw [← h.uses, List.flatMap_append, List.flatMap_append, List.append_assoc,
      List.flatMap_singleton, List.flatMap_singleton, Period.uses_extend]
  case regular =>
    rw [List.forall_mem_append]
    refine ⟨fun q hq => h.regular q (List.mem_append_left _ hq), List.forall_mem_singleton.2 ?_⟩
    exact (h.regular p hp).extend (h.opened p hp) hlasts window
  case apart =>
    exact List.pairwise_append.2 ⟨hearlier, List.pairwise_singleton _ _,
      fun q hq => List.forall_mem_singleton.2 (hbefore q hq p List.mem_cons_self)⟩
  case opened =>
    rw [List.forall_mem_append]
    exact ⟨fun q hq => h.opened q (List.mem_append_left _ hq),
      List.forall_mem_singleton.2 (h.opened p hp)⟩
  case lasting =>
    rw [List.forall_mem_append, List.forall_mem_singleton]
    refine ⟨fun q hq hq' => absurd (hover q hq) (not_le_of_gt hq'), fun _ => ?_⟩
    rw [hafter, Period.uses_extend, List.length_append]
    rfl
  case ended =>
    -- the period that goes on has not ended
    intro hended
    exact absurd (hended _ (List.mem_append_right _ List.mem_cons_self)) (not_le_of_gt hlasts)

/-- When all periods are over, another one is opened. -/
theorem opens (h : Chronicled now cell done periods) (hended : ∀ p ∈ periods, p.ends ≤ now)
    (hnow : now < Word.max) (window : Nat)
    (hafter : Fades now (some (.fixed ⟨1, Word.clamp (now + window)⟩)) after) :
    let u : Increment := ⟨now, window, ⟨1, Word.clamp (now + window) - now⟩⟩
    Chronicled now after (done ++ [u]) (periods ++ [⟨u, []⟩]) := by
  intro u
  refine { uses := ?uses, regular := ?regular, apart := ?apart, opened := ?opened,
           lasting := ?lasting, ended := ?ended }
  case uses =>
    rw [← h.uses, List.flatMap_append, List.flatMap_singleton]
    rfl
  case regular =>
    exact List.forall_mem_append.2
      ⟨h.regular, List.forall_mem_singleton.2 (Period.regular_opened hnow window)⟩
  case apart =>
    exact List.pairwise_append.2 ⟨h.apart, List.pairwise_singleton _ _,
      fun q hq => List.forall_mem_singleton.2 (hended q hq)⟩
  case opened =>
    exact List.forall_mem_append.2 ⟨h.opened, List.forall_mem_singleton.2 le_rfl⟩
  case lasting =>
    rw [List.forall_mem_append, List.forall_mem_singleton]
    exact ⟨fun q hq hq' => absurd (hended q hq) (not_le_of_gt hq'),
      fun hlasts => hafter.eq_of_alive (FixedCounter.isExpired_eq_false hlasts)⟩
  case ended =>
    -- a period without a window has ended as soon as it is opened
    intro hover
    have hend : Word.clamp (now + window) ≤ now :=
      hover ⟨u, []⟩ (List.mem_append_right _ List.mem_cons_self)
    exact hafter.faded (faded_some (decide_eq_true hend))

variable {key : String} {s : Store}

/-- **An increment** is counted in the period that lasts, or opens one. -/
theorem increment (hd : s.Distinct) (h : Chronicled now (s.find? key) done periods)
    (hnow : now < Word.max) (window : Nat) :
    ∃ periods', Chronicled now ((s.incrementFixed now key window).2.find? key)
      (done ++ [⟨now, window, (s.incrementFixed now key window).1⟩]) periods' := by
  by_cases hended : ∀ p ∈ periods, p.ends ≤ now
  · have hlive : s.liveFixed now key window = ⟨0, Word.clamp (now + window)⟩ := by
      rw [Store.liveFixed_of_faded (h.ended hended), FixedCounter.start, Word.add_clamp]
    rw [Store.incrementFixed, hlive]
    exact ⟨_, h.opens hended hnow window (Store.fades_countWrite_put hd now key _)⟩
  · push Not at hended
    obtain ⟨p, hp, hlasts⟩ := hended
    obtain ⟨earlier, rfl⟩ := h.exists_latest hp hlasts
    have hlive : s.liveFixed now key window = ⟨p.uses.length, p.ends⟩ :=
      Store.liveFixed_of_alive (h.lasting p hp hlasts) (FixedCounter.isExpired_eq_false hlasts)
        window
    rw [Store.incrementFixed, hlive]
    exact ⟨_, h.goOn hlasts window ((Store.fades_countWrite_put hd now key _).eq_of_alive
      (FixedCounter.isExpired_eq_false hlasts))⟩

/-- **Whatever comes,** the increments divide into periods. -/
theorem step (hd : s.Distinct) (h : Chronicled now (s.find? key) done periods)
    (hnow : now < Word.max) (step : Traffic key) :
    ∃ periods', Chronicled now ((step.store s now).find? key)
      (done ++ (step.increment? s now).toList) periods' := by
  cases hstep : step.increment? s now with
  | none =>
    rw [Option.toList_none, List.append_nil]
    exact ⟨periods, h.fades (Traffic.fades_store hd hstep)⟩
  | some u =>
    cases step with
    | increment window =>
      cases hstep
      exact h.increment hd hnow window
    | read | elsewhere | purge => cases hstep

/-- **After any traffic** the increments divide into periods. -/
theorem run {steps : List (Nat × Traffic key)} (hd : s.Distinct)
    (h : Chronicled now (s.find? key) done periods)
    (hclock : (now :: (steps.map Prod.fst ++ [next])).Pairwise (· ≤ ·)) (hend : next < Word.max) :
    ∃ periods', Chronicled next ((Traffic.storeAfter s steps).find? key)
      (done ++ Traffic.increments s steps) periods' := by
  induction steps generalizing s now done periods with
  | nil =>
    rw [Traffic.increments, List.append_nil]
    exact ⟨periods, h.later (List.rel_of_pairwise_cons hclock List.mem_cons_self)⟩
  | cons head rest ih =>
    obtain ⟨at_, step⟩ := head
    obtain ⟨hfirst, hrest⟩ := List.pairwise_cons.1 hclock
    have hat : at_ < Word.max :=
      (List.rel_of_pairwise_cons hrest (List.mem_append_right _ List.mem_cons_self)).trans_lt hend
    obtain ⟨periods', h'⟩ := (h.later (hfirst at_ List.mem_cons_self)).step hd hat step
    rw [Traffic.increments, ← List.append_assoc]
    exact ih (Traffic.distinct_store hd at_ step) h' hrest

/-- No increment is counted higher than the number of increments. -/
theorem count_le (h : Chronicled now cell done periods) {u : Increment} (hu : u ∈ done) :
    u.answer.count ≤ done.length := by
  rw [← h.uses] at hu ⊢
  obtain ⟨p, hp, hup⟩ := List.mem_flatMap.1 hu
  have hpart : p.uses.Sublist (periods.flatMap Period.uses) :=
    List.sublist_flatten_of_mem (List.mem_map_of_mem hp)
  exact ((h.regular p hp).count_le hup).trans hpart.length_le

end Chronicled

end Admission
