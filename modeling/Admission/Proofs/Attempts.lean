/-
Attempts on one log, one after another.

Two laws that compare two runs. An attempt that is refused trims the log and sets its window,
but what it takes away is what any later attempt would take away as well; so runs with and
without it stay alike from then on (`SlidingLog.Alike`), and what was refused leaves no trace
(`refused_attempts_leave_no_trace`).

Under a higher limit more is recorded, and what is recorded later stands in the way. Still the
log of the higher limit is never ahead by more than the difference of the limits, counted from
any time on (`SlidingLog.AheadBy`), so wherever the lower limit leaves room the higher one does
(`admitted_under_higher_limit`).
-/
import Admission.Proofs.ArrivalOrder

set_option autoImplicit false

namespace Admission

/-! ## Runs of attempts -/

/-- **An attempt as a caller makes it:** at a time, against a limit. -/
structure Attempt where
  now : Nat
  limit : Nat
  deriving DecidableEq

namespace SlidingLog

/-- **Attempts with one window,** one after another, each with its answer. -/
def transcript (window : Nat) (l : SlidingLog) : List Attempt → List (Attempt × SlidingCount)
  | [] => []
  | a :: rest =>
    let (answer, l) := l.attempt a.now window a.limit
    (a, answer) :: l.transcript window rest

/-- The log after them. -/
def afterAttempts (window : Nat) (l : SlidingLog) : List Attempt → SlidingLog
  | [] => l
  | a :: rest => (l.attempt a.now window a.limit).2.afterAttempts window rest

variable {l l' : SlidingLog} {window now after limit : Nat}

theorem transcript_cons (window : Nat) (l : SlidingLog) (a : Attempt) (rest : List Attempt) :
    l.transcript window (a :: rest) = (a, (l.attempt a.now window a.limit).1) ::
      (l.attempt a.now window a.limit).2.transcript window rest := rfl

/-! ## What later attempts can see -/

/-- Who leaves a window has left it later. -/
theorem hasLeft_mono {entry : Nat} (hle : now ≤ after) (h : hasLeft window now entry = true) :
    hasLeft window after entry = true := by
  rw [hasLeft, decide_eq_true_iff] at h ⊢
  omega

theorem dropWhile_dropWhile {α : Type} {p q : α → Bool} (h : ∀ a, p a = true → q a = true)
    (xs : List α) : (xs.dropWhile p).dropWhile q = xs.dropWhile q := by
  induction xs with
  | nil => rfl
  | cons a rest ih =>
    by_cases hp : p a = true
    · rw [List.dropWhile_cons_of_pos hp, ih, List.dropWhile_cons_of_pos (h a hp)]
    · rw [List.dropWhile_cons_of_neg hp]

/-- What an attempt leaves behind changes nothing of what a later one finds. -/
theorem dropWhile_found (l : SlidingLog) (window : Nat) (hle : now ≤ after) :
    (l.found window now).dropWhile (hasLeft (Word.clamp window) after) = l.found window after :=
  dropWhile_dropWhile (fun _ => hasLeft_mono hle) l.instants

/-- **Logs that are alike from a time on:** they live as long, and attempts find the same in
them. -/
structure Alike (window now : Nat) (l l' : SlidingLog) : Prop where
  window_left : l.window = Word.clamp window
  window_right : l'.window = Word.clamp window
  expiresAt : l.expiresAt = l'.expiresAt
  found : l.found window now = l'.found window now

/-- What an attempt makes of a log depends on what it finds, and on how long the log lives. -/
theorem attempt_congr (hexpires : l.expiresAt = l'.expiresAt)
    (hfound : l.found window now = l'.found window now) (limit : Nat) :
    l.attempt now window limit = l'.attempt now window limit := by
  have htrim : ({ l with window := Word.clamp window } : SlidingLog).trim now =
      ({ l' with window := Word.clamp window } : SlidingLog).trim now := by
    rw [trim, trim, mk.injEq]
    exact ⟨hfound, rfl, hexpires⟩
  rw [attempt, attempt, htrim]

/-- What is behind the entries that have left is all that is counted. -/
theorem count_eq_countP_found (h : l.window = Word.clamp window) (now : Nat) :
    l.count now =
      (l.found window now).countP fun entry => !hasLeft (Word.clamp window) now entry := by
  have hgone : (l.instants.takeWhile (hasLeft (Word.clamp window) now)).countP
      (fun entry => !hasLeft (Word.clamp window) now entry) = 0 := by
    rw [List.countP_eq_zero]
    intro entry hentry
    rw [List.mem_takeWhile_imp hentry]
    exact Bool.false_ne_true
  rw [count, h]
  conv_lhs => rw [← List.takeWhile_append_dropWhile (p := hasLeft (Word.clamp window) now)
    (l := l.instants), List.countP_append, hgone, Nat.zero_add]
  rfl

namespace Alike

theorem refl (h : l.window = Word.clamp window) (now : Nat) : Alike window now l l :=
  ⟨h, h, rfl, rfl⟩

theorem later (h : Alike window now l l') (hle : now ≤ after) : Alike window after l l' where
  window_left := h.window_left
  window_right := h.window_right
  expiresAt := h.expiresAt
  found := by rw [← dropWhile_found l window hle, h.found, dropWhile_found l' window hle]

/-- **Attempts on logs that are alike** are answered alike, and leave one and the same log. -/
theorem attempt_eq (h : Alike window now l l') (limit : Nat) :
    l.attempt now window limit = l'.attempt now window limit :=
  attempt_congr h.expiresAt h.found limit

/-- **A refused attempt keeps a log alike** to what it was. -/
theorem refused (h : Alike window now l l')
    (hrefused : (l.attempt now window limit).1.exceeded = true) :
    Alike window now (l.attempt now window limit).2 l' := by
  have hfull : limit ≤ (l.found window now).length := by
    by_contra hroom
    rw [(attempt_of_room hroom).2.1] at hrefused
    cases hrefused
  have hattempt : l.attempt now window limit = _ := if_pos hfull
  refine ⟨window_attempt l now window limit, h.window_right, ?_, ?_⟩
  · rw [hattempt]
    exact h.expiresAt
  · have hfound : (l.attempt now window limit).2.found window now = l.found window now := by
      rw [SlidingLog.found, (attempt_of_full hfull).2.2, dropWhile_found l window le_rfl]
    rw [hfound, h.found]

/-- Reading logs that are alike shows the same. -/
theorem reads (h : Alike window now l l') :
    l.count now = l'.count now ∧ l.ttl now = l'.ttl now ∧ l.isExpired now = l'.isExpired now := by
  refine ⟨?_, ?_, ?_⟩
  · rw [count_eq_countP_found h.window_left, count_eq_countP_found h.window_right, h.found]
  · rw [ttl, ttl, h.expiresAt]
  · rw [isExpired, isExpired, h.expiresAt]

end Alike

end SlidingLog

/-! ## Leaving out what was refused -/

/-- **A transcript without some of the refused attempts.** -/
inductive LessRefused : List (Attempt × SlidingCount) → List (Attempt × SlidingCount) → Prop
  | nil : LessRefused [] []
  | keep (entry : Attempt × SlidingCount) {all kept : List (Attempt × SlidingCount)}
      (h : LessRefused all kept) : LessRefused (entry :: all) (entry :: kept)
  | leaveOut {entry : Attempt × SlidingCount} (hrefused : entry.2.exceeded = true)
      {all kept : List (Attempt × SlidingCount)} (h : LessRefused all kept) :
      LessRefused (entry :: all) kept

/-- **Runs of logs that are alike,** with and without attempts that are refused in the first. -/
theorem SlidingLog.Alike.run {window start : Nat} {l l' : SlidingLog} {attempts : List Attempt}
    {kept : List (Attempt × SlidingCount)} (h : Alike window start l l')
    (horder : attempts.Pairwise fun a b => a.now ≤ b.now) (hstart : ∀ a ∈ attempts, start ≤ a.now)
    (hkept : LessRefused (l.transcript window attempts) kept) :
    l'.transcript window (kept.map Prod.fst) = kept ∧
      ∀ now, start ≤ now → (∀ a ∈ attempts, a.now ≤ now) →
        Alike window now (l.afterAttempts window attempts)
          (l'.afterAttempts window (kept.map Prod.fst)) := by
  induction attempts generalizing l l' kept start with
  | nil =>
    cases hkept
    exact ⟨rfl, fun now hle _ => h.later hle⟩
  | cons a rest ih =>
    rw [List.pairwise_cons] at horder
    rw [List.forall_mem_cons] at hstart
    rw [transcript_cons] at hkept
    have halike := h.later hstart.1
    cases hkept with
    | keep _ hrest =>
      -- after an attempt that is made on both, the logs are the same
      obtain ⟨htranscript, hafter⟩ :=
        ih (.refl (window_attempt l a.now window a.limit) a.now) horder.2 horder.1 hrest
      rw [List.map_cons, transcript_cons, ← halike.attempt_eq, htranscript]
      refine ⟨rfl, fun now _ hnow => ?_⟩
      rw [List.forall_mem_cons] at hnow
      rw [afterAttempts, afterAttempts, ← halike.attempt_eq]
      exact hafter now hnow.1 hnow.2
    | leaveOut hrefused hrest =>
      obtain ⟨htranscript, hafter⟩ := ih (halike.refused hrefused) horder.2 horder.1 hrest
      refine ⟨htranscript, fun now _ hnow => ?_⟩
      rw [List.forall_mem_cons] at hnow
      exact hafter now hnow.1 hnow.2

/-- **What was refused leaves no trace.** Let a log be attempted with one window, in the order of
time, each attempt against whatever limit. Leave out any of the attempts that were refused. Then
the others are answered as before, with the same counts, verdicts and times of reset; and at any
time that is not before the last attempt, left out or not, the log counts the same, lives as
long, and is over or not as before. -/
theorem refused_attempts_leave_no_trace {window : Nat} {l : SlidingLog}
    (hwindow : l.window = Word.clamp window) {attempts : List Attempt}
    (horder : attempts.Pairwise fun a b => a.now ≤ b.now)
    {kept : List (Attempt × SlidingCount)}
    (hkept : LessRefused (l.transcript window attempts) kept) :
    let fewer := kept.map Prod.fst
    l.transcript window fewer = kept ∧
    ∀ now, (∀ a ∈ attempts, a.now ≤ now) →
      let log := l.afterAttempts window attempts
      let log' := l.afterAttempts window fewer
      log'.count now = log.count now ∧ log'.ttl now = log.ttl now ∧
        log'.isExpired now = log.isExpired now := by
  obtain ⟨htranscript, hafter⟩ := (SlidingLog.Alike.refl hwindow 0).run horder
    (fun _ _ => Nat.zero_le _) hkept
  intro fewer
  refine ⟨htranscript, fun now hnow => ?_⟩
  obtain ⟨hcount, httl, hexpired⟩ := (hafter now (Nat.zero_le now) hnow).reads
  exact ⟨hcount.symm, httl.symm, hexpired.symm⟩

/-- A client that hammers while it is refused: the attempts at 0.3 and 0.6 seconds may as well not
have been made. -/
theorem refused_attempts_leave_no_trace_of_hammering :
    let log := SlidingLog.start 1000
    let hammering : List Attempt := [⟨0, 1⟩, ⟨300, 1⟩, ⟨600, 1⟩, ⟨1000, 1⟩]
    let patient : List Attempt := [⟨0, 1⟩, ⟨1000, 1⟩]
    log.transcript 1000 hammering =
        [(⟨0, 1⟩, ⟨1, false, 1000⟩), (⟨300, 1⟩, ⟨1, true, 700⟩), (⟨600, 1⟩, ⟨1, true, 400⟩),
          (⟨1000, 1⟩, ⟨1, false, 1000⟩)] ∧
      log.transcript 1000 patient =
        [(⟨0, 1⟩, ⟨1, false, 1000⟩), (⟨1000, 1⟩, ⟨1, false, 1000⟩)] ∧
      (log.afterAttempts 1000 patient).count 1500 = (log.afterAttempts 1000 hammering).count 1500 ∧
      (log.afterAttempts 1000 patient).ttl 1500 = (log.afterAttempts 1000 hammering).ttl 1500 := by
  intro log hammering patient
  have hrun : log.transcript 1000 hammering =
      [(⟨0, 1⟩, ⟨1, false, 1000⟩), (⟨300, 1⟩, ⟨1, true, 700⟩), (⟨600, 1⟩, ⟨1, true, 400⟩),
        (⟨1000, 1⟩, ⟨1, false, 1000⟩)] := by decide
  have hkept : LessRefused (log.transcript 1000 hammering)
      [(⟨0, 1⟩, ⟨1, false, 1000⟩), (⟨1000, 1⟩, ⟨1, false, 1000⟩)] := by
    rw [hrun]
    exact .keep _ (.leaveOut rfl (.leaveOut rfl (.keep _ .nil)))
  obtain ⟨htranscript, hafter⟩ := refused_attempts_leave_no_trace rfl (by decide) hkept
  obtain ⟨hcount, httl, -⟩ := hafter 1500 (by decide)
  exact ⟨hrun, htranscript, hcount, httl⟩

/-! ## A higher limit -/

namespace SlidingLog

/-- **How far the entries under a higher limit are ahead** of those under a lower one: all of
these are among them, and from any time on they are only so many more. -/
structure AheadBy (extra : Nat) (low high : List Nat) : Prop where
  sublist : low.Sublist high
  sorted : high.Pairwise (· ≤ ·)
  since : ∀ t, high.countP (t ≤ ·) ≤ low.countP (t ≤ ·) + extra

namespace AheadBy

variable {extra now limit : Nat} {low high : List Nat}

theorem nil (extra : Nat) : AheadBy extra [] [] := ⟨.slnil, .nil, fun _ => Nat.zero_le _⟩

theorem length_le (h : AheadBy extra low high) : high.length ≤ low.length + extra := by
  simpa using h.since 0

/-- Forgetting what is before some time lets them get no further ahead. -/
theorem filter (h : AheadBy extra low high) (start : Nat) :
    AheadBy extra (low.filter (start ≤ ·)) (high.filter (start ≤ ·)) where
  sublist := h.sublist.filter _
  sorted := h.sorted.filter _
  since := by
    intro t
    -- what is left from a time on is what there was from the later of two times on
    have hmax : ∀ xs : List Nat, (xs.filter (start ≤ ·)).countP (t ≤ ·) =
        xs.countP (max t start ≤ ·) := by
      intro xs
      rw [List.countP_filter]
      simp only [max_le_iff, Bool.decide_and]
    rw [hmax, hmax]
    exact h.since _

/-- An attempt is recorded under both limits. -/
theorem both (h : AheadBy extra low high) (hnow : ∀ entry ∈ high, entry ≤ now) :
    AheadBy extra (low ++ [now]) (high ++ [now]) where
  sublist := h.sublist.append (.refl _)
  sorted := by
    rw [List.pairwise_append]
    refine ⟨h.sorted, List.pairwise_singleton _ now, ?_⟩
    simpa using hnow
  since := by
    intro t
    have hsince := h.since t
    rw [List.countP_append, List.countP_append]
    omega

/-- Under the higher limit alone it is recorded, where there is room and none under the lower. -/
theorem alone (h : AheadBy extra low high) (hnow : ∀ entry ∈ high, entry ≤ now)
    (hfull : limit ≤ low.length) (hroom : high.length < limit + extra) :
    AheadBy extra low (high ++ [now]) where
  sublist := h.sublist.trans (List.sublist_append_left _ _)
  sorted := (h.both hnow).sorted
  since := by
    intro t
    -- before the time it holds no less, so what it is ahead by it is ahead by altogether
    have hbefore := h.sublist.countP_le (p := fun entry => decide ¬ t ≤ entry)
    have hlow := List.length_eq_countP_add_countP (fun entry => decide (t ≤ entry)) (l := low)
    have hhigh := List.length_eq_countP_add_countP (fun entry => decide (t ≤ entry)) (l := high)
    have hone : [now].countP (t ≤ ·) ≤ 1 := List.countP_le_length
    simp only [decide_eq_true_eq] at hlow hhigh
    rw [List.countP_append]
    omega

end AheadBy

/-- In a log in order an attempt finds what is not before its window. -/
theorem found_of_sorted (l : SlidingLog) (window now : Nat) (h : l.instants.Pairwise (· ≤ ·)) :
    l.found window now = l.instants.filter (now + 1 - Word.clamp window ≤ ·) := by
  rw [found, hasLeft_eq_decide, dropWhile_eq_filter_of_pairwise]
  · refine List.filter_congr ?_
    intro entry _
    rw [← decide_not, decide_eq_decide, Promise.Left]
    omega
  · refine h.imp ?_
    intro earlier later hle hleft
    rw [decide_eq_true_iff, Promise.Left] at hleft ⊢
    omega

variable {extra now : Nat} {low high : SlidingLog}

/-- **One attempt on both logs:** where the lower limit leaves room the higher one does, and the
log of the higher limit gets no further ahead. -/
theorem AheadBy.attempt (h : AheadBy extra low.instants high.instants)
    (hnow : ∀ entry ∈ high.instants, entry ≤ now) (window limit : Nat) :
    ((low.attempt now window limit).1.exceeded = false →
        (high.attempt now window (limit + extra)).1.exceeded = false) ∧
      AheadBy extra (low.attempt now window limit).2.instants
        (high.attempt now window (limit + extra)).2.instants ∧
      ∀ entry ∈ (high.attempt now window (limit + extra)).2.instants, entry ≤ now := by
  have hfound : AheadBy extra (low.found window now) (high.found window now) := by
    rw [low.found_of_sorted window now (h.sorted.sublist h.sublist),
      high.found_of_sorted window now h.sorted]
    exact h.filter _
  have hearlier : ∀ entry ∈ high.found window now, entry ≤ now :=
    fun entry hentry => hnow entry ((List.dropWhile_sublist _).subset hentry)
  have hrecorded : ∀ entry ∈ high.found window now ++ [now], entry ≤ now :=
    List.forall_mem_append.2 ⟨hearlier, List.forall_mem_singleton.2 le_rfl⟩
  have hlength := hfound.length_le
  by_cases hlow : limit ≤ (low.found window now).length
  · obtain ⟨-, hrefused, hinstants⟩ := attempt_of_full hlow
    rw [hrefused, hinstants]
    by_cases hhigh : limit + extra ≤ (high.found window now).length
    · rw [(attempt_of_full hhigh).2.2]
      exact ⟨nofun, hfound, hearlier⟩
    · rw [(attempt_of_room hhigh).2.2]
      exact ⟨nofun, hfound.alone hearlier hlow (not_le.1 hhigh), hrecorded⟩
  · -- with room in the lower log the higher one cannot be full
    have hhigh : ¬ limit + extra ≤ (high.found window now).length := by omega
    obtain ⟨-, hpassed, hinstants⟩ := attempt_of_room hhigh
    rw [(attempt_of_room hlow).2.2, hpassed, hinstants]
    exact ⟨fun _ => rfl, hfound.both hearlier, hrecorded⟩

/-- **A run of attempts on both logs:** whatever passes under the lower limit passes under the
higher one. -/
theorem AheadBy.run (h : AheadBy extra low.instants high.instants) {times : List Nat}
    (horder : times.Pairwise (· ≤ ·))
    (hstart : ∀ now ∈ times, ∀ entry ∈ high.instants, entry ≤ now) (window limit : Nat) :
    List.Forall₂
      (fun a b => b.1 = ⟨a.1.now, limit + extra⟩ ∧ (a.2.exceeded = false → b.2.exceeded = false))
      (low.transcript window (times.map (Attempt.mk · limit)))
      (high.transcript window (times.map (Attempt.mk · (limit + extra)))) := by
  induction times generalizing low high with
  | nil => exact .nil
  | cons now rest ih =>
    rw [List.pairwise_cons] at horder
    rw [List.forall_mem_cons] at hstart
    obtain ⟨hpasses, hahead, hearlier⟩ := h.attempt hstart.1 window limit
    refine .cons ⟨rfl, hpasses⟩ (ih hahead horder.2 ?_)
    exact fun later hlater entry hentry => (hearlier entry hentry).trans (horder.1 later hlater)

end SlidingLog

/-- What is related place by place has at each place what is related. -/
theorem exists_getElem?_of_forall₂ {α β : Type} {R : α → β → Prop} {xs : List α} {ys : List β}
    (h : List.Forall₂ R xs ys) {i : Nat} {x : α} (hx : xs[i]? = some x) :
    ∃ y, ys[i]? = some y ∧ R x y := by
  induction h generalizing i with
  | nil => cases hx
  | cons hhead _ ih =>
    cases i with
    | zero =>
      cases hx
      exact ⟨_, rfl, hhead⟩
    | succ i => exact ih hx

/-- **Raising a limit refuses nothing that was let through before.** Let two empty logs be
attempted at the same times, in order, with the same window, one against a limit and the other
against one that is no lower. Whichever attempt passes in the first passes in the second. -/
theorem admitted_under_higher_limit (window : Nat) {low high : Nat} (hle : low ≤ high)
    {times : List Nat} (horder : times.Pairwise (· ≤ ·)) :
    let run (limit : Nat) :=
      (SlidingLog.start window).transcript window (times.map (Attempt.mk · limit))
    ∀ (i : Nat) (a : Attempt) (c : SlidingCount), (run low)[i]? = some (a, c) →
      c.exceeded = false →
        ∃ c', (run high)[i]? = some (⟨a.now, high⟩, c') ∧ c'.exceeded = false := by
  intro run i a c hc hpassed
  obtain ⟨extra, rfl⟩ := Nat.exists_eq_add_of_le hle
  have hempty : SlidingLog.AheadBy extra (SlidingLog.start window).instants
      (SlidingLog.start window).instants := .nil extra
  have hrun := hempty.run horder (fun _ _ => List.forall_mem_nil _) window low
  obtain ⟨⟨b, c'⟩, hfound, hattempt, hpasses⟩ := exists_getElem?_of_forall₂ hrun hc
  dsimp only at hattempt hpasses
  rw [hattempt] at hfound
  exact ⟨c', hfound, hpasses hpassed⟩

/-- Two requests a second in place of one let the request at 0.3 seconds through as well; the one
at 1 second still passes, though that one is in its window. -/
theorem admitted_under_higher_limit_of_burst :
    let run (limit : Nat) :=
      (SlidingLog.start 1000).transcript 1000 ([0, 300, 600, 1000].map (Attempt.mk · limit))
    (run 1)[3]? = some (⟨1000, 1⟩, ⟨1, false, 1000⟩) ∧
      ∃ c', (run 2)[3]? = some (⟨1000, 2⟩, c') ∧ c'.exceeded = false := by
  intro run
  have hpassed : (run 1)[3]? = some (⟨1000, 1⟩, ⟨1, false, 1000⟩) := by decide
  have horder : [0, 300, 600, 1000].Pairwise (· ≤ ·) := by decide
  exact ⟨hpassed, admitted_under_higher_limit 1000 (by decide : 1 ≤ 2) horder 3 _ _ hpassed rfl⟩

/-- There is no such law for shorter windows: with one of 5 in place of 10, the request at 6 passes
and the one at 10 is refused in its stead. -/
example :
    let passed (window : Nat) := ((SlidingLog.start window).transcript window
      ([0, 6, 10].map (Attempt.mk · 1))).map fun entry => !entry.2.exceeded
    passed 10 = [true, false, true] ∧ passed 5 = [true, true, false] := by
  decide

end Admission
