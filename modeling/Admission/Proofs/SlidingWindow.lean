/-
Sliding windows admit by the trailing window alone.

A log is trimmed from its front, late, and may be swept away whole; the law speaks of
every request that was ever admitted. `SlidingLog.Keeps` ties the two: what the log
has lost has left the window for good, and the log lives until its last instant has
left too. So an attempt sees exactly the admissions of the trailing window
(`SlidingLog.Keeps.attempt`), wherever the sweeps fall (`Logged.fades`), and what the
store answers over a history is what the window says (`Store.Serves.logged`).
-/
import Admission.Proofs.Verdict

set_option autoImplicit false

namespace Admission

/-! ## Trailing windows -/

/-- How many of some instants lie in the window that trails a time. During the first
window after the epoch all of them do. -/
def trailing (window now : Nat) (past : List Nat) : Nat :=
  past.countP fun instant => decide (now < instant + window)

theorem trailing_append (window now : Nat) (before past : List Nat) :
    trailing window now (before ++ past) = trailing window now before + trailing window now past :=
  List.countP_append

/-- What has left the window is not in it later. -/
theorem trailing_eq_zero {window now : Nat} {past : List Nat}
    (h : ∀ instant ∈ past, instant + window ≤ now) : trailing window now past = 0 := by
  rw [trailing, List.countP_eq_zero]
  intro instant hinstant
  rw [decide_eq_true_iff, not_lt]
  exact h instant hinstant

/-- **Instants at a pace:** no interval as long as the window holds more than the
limit of them. -/
def Paced (window limit : Nat) (past : List Nat) : Prop :=
  ∀ t, past.countP (fun instant => decide (t < instant ∧ instant ≤ t + window)) ≤ limit

theorem Paced.nil (window limit : Nat) : Paced window limit [] := fun _ => Nat.zero_le limit

/-- One more instant keeps the pace if the window that trails it has room. -/
theorem Paced.snoc {window limit now : Nat} {past : List Nat} (h : Paced window limit past)
    (hroom : trailing window now past < limit) : Paced window limit (past ++ [now]) := by
  intro t
  rw [List.countP_append, List.countP_singleton]
  by_cases hnow : t < now ∧ now ≤ t + window
  · rw [if_pos (decide_eq_true hnow)]
    -- whatever is in an interval up to now is in the window that trails now
    have hle : past.countP (fun instant => decide (t < instant ∧ instant ≤ t + window)) ≤
        trailing window now past := by
      refine List.countP_mono_left ?_
      intro instant _ hinstant
      rw [decide_eq_true_iff] at hinstant ⊢
      omega
    omega
  · rw [if_neg (by simpa using hnow), Nat.add_zero]
    exact h t

/-! ## Logs -/

/-- An entry of a log has left the window if it is as old as the window. -/
theorem SlidingLog.hasLeft_iff {window now entry : Nat} (hnow : now < Word.max) :
    hasLeft (Word.clamp window) now entry = true ↔ entry + window ≤ now := by
  rw [hasLeft, decide_eq_true_iff, Word.clamp]
  omega

/-- An entry from which the window reaches no further than the present has left it. -/
theorem SlidingLog.left_of_add_le {window now entry : Nat} (hnow : now < Word.max)
    (h : Word.add entry (Word.clamp window) ≤ now) : entry + window ≤ now := by
  -- a sum that was cut off would be the largest word, and now is below it
  rw [Word.add, Word.clamp, Word.clamp] at h
  omega

/-- In an ordered list what goes first goes from the front. -/
theorem dropWhile_eq_filter_of_pairwise {α : Type} {p : α → Bool} {l : List α}
    (h : l.Pairwise fun a b => p b = true → p a = true) :
    l.dropWhile p = l.filter fun a => !p a := by
  induction l with
  | nil => rfl
  | cons a rest ih =>
    rw [List.pairwise_cons] at h
    by_cases ha : p a = true
    · rw [List.dropWhile_cons_of_pos ha, List.filter_cons_of_neg (by simpa using ha), ih h.2]
    · have hrest : rest.filter (fun b => !p b) = rest := by
        rw [List.filter_eq_self]
        intro b hb
        have hb : ¬ p b = true := fun hpb => ha (h.1 b hb hpb)
        simpa using hb
      rw [List.dropWhile_cons_of_neg ha, List.filter_cons_of_pos (by simpa using ha), hrest]

namespace SlidingLog

/-- **A log keeps the admissions of the past:** they are in order, the log ends with
the latest of them, the others have left the window, and the log's own time is not
over before its last instant has left. -/
structure Keeps (l : SlidingLog) (window now : Nat) (past : List Nat) : Prop where
  window_eq : l.window = Word.clamp window
  sorted : past.Pairwise (· ≤ ·)
  le_now : ∀ instant ∈ past, instant ≤ now
  expires : ∀ instant ∈ l.instants, Word.add instant l.window ≤ l.expiresAt
  lost : ∃ gone, past = gone ++ l.instants ∧ ∀ instant ∈ gone, instant + window ≤ now

variable {l : SlidingLog} {window now : Nat} {past : List Nat}

/-- An attempt sets the window. -/
theorem window_attempt (l : SlidingLog) (now window limit : Nat) :
    (l.attempt now window limit).2.window = Word.clamp window := by
  rw [attempt]
  dsimp only
  split <;> rfl

/-- An empty log keeps what has left the window. -/
theorem keeps_start (hsorted : past.Pairwise (· ≤ ·)) (hle : ∀ instant ∈ past, instant ≤ now)
    (hgone : ∀ instant ∈ past, instant + window ≤ now) : (start window).Keeps window now past where
  window_eq := rfl
  sorted := hsorted
  le_now := hle
  expires := fun _ h => absurd h List.not_mem_nil
  lost := ⟨past, (List.append_nil past).symm, hgone⟩

namespace Keeps

theorem later {after : Nat} (h : l.Keeps window now past) (hle : now ≤ after) :
    l.Keeps window after past where
  window_eq := h.window_eq
  sorted := h.sorted
  le_now := fun instant hinstant => (h.le_now instant hinstant).trans hle
  expires := h.expires
  lost := by
    obtain ⟨gone, hpast, hgone⟩ := h.lost
    exact ⟨gone, hpast, fun instant hinstant => (hgone instant hinstant).trans hle⟩

theorem sorted_instants (h : l.Keeps window now past) : l.instants.Pairwise (· ≤ ·) := by
  obtain ⟨gone, hpast, -⟩ := h.lost
  have hsorted := h.sorted
  rw [hpast, List.pairwise_append] at hsorted
  exact hsorted.2.1

theorem mem_of_mem_instants (h : l.Keeps window now past) {instant : Nat}
    (hinstant : instant ∈ l.instants) : instant ∈ past := by
  obtain ⟨gone, hpast, -⟩ := h.lost
  rw [hpast]
  exact List.mem_append_right gone hinstant

/-- Once a log's time is over, everything it kept has left the window. -/
theorem left_of_isExpired (h : l.Keeps window now past) (hnow : now < Word.max)
    (hexpired : l.isExpired now = true) : ∀ instant ∈ past, instant + window ≤ now := by
  rw [isExpired_iff] at hexpired
  obtain ⟨gone, rfl, hgone⟩ := h.lost
  intro instant hinstant
  rcases List.mem_append.1 hinstant with hinstant | hinstant
  · exact hgone instant hinstant
  · have hexpires := (h.expires instant hinstant).trans hexpired
    rw [h.window_eq] at hexpires
    exact left_of_add_le hnow hexpires

/-- **What is left of a log after trimming** are the admissions of the trailing
window. -/
theorem length_trim (h : l.Keeps window now past) (hnow : now < Word.max) :
    (l.trim now).instants.length = trailing window now past := by
  obtain ⟨gone, hpast, hgone⟩ := h.lost
  -- the instants are in order, so trimming from the front takes all that have left
  have hsorted : l.instants.Pairwise fun a b =>
      hasLeft l.window now b = true → hasLeft l.window now a = true := by
    refine h.sorted_instants.imp ?_
    intro a b hab hb
    rw [h.window_eq, hasLeft_iff hnow] at hb ⊢
    omega
  rw [trim, dropWhile_eq_filter_of_pairwise hsorted, ← List.countP_eq_length_filter, hpast,
    trailing_append, trailing_eq_zero hgone, Nat.zero_add, trailing]
  refine List.countP_congr ?_
  intro instant _
  rw [h.window_eq, Bool.not_eq_true', ← Bool.not_eq_true, hasLeft_iff hnow, decide_eq_true_iff,
    not_le]

/-- Reading a log counts the same. -/
theorem count_eq (h : l.Keeps window now past) (hnow : now < Word.max) :
    l.count now = trailing window now past := by
  obtain ⟨gone, hpast, hgone⟩ := h.lost
  rw [hpast, trailing_append, trailing_eq_zero hgone, Nat.zero_add, count, trailing]
  refine List.countP_congr ?_
  intro instant _
  rw [h.window_eq, Bool.not_eq_true', ← Bool.not_eq_true, hasLeft_iff hnow, decide_eq_true_iff,
    not_le]

/-- Trimming loses what has left the window. -/
theorem trim (h : l.Keeps window now past) (hnow : now < Word.max) :
    (l.trim now).Keeps window now past where
  window_eq := h.window_eq
  sorted := h.sorted
  le_now := h.le_now
  expires := fun instant hinstant =>
    h.expires instant ((List.dropWhile_sublist _).subset hinstant)
  lost := by
    obtain ⟨gone, hpast, hgone⟩ := h.lost
    refine ⟨gone ++ l.instants.takeWhile (hasLeft l.window now), ?_, ?_⟩
    · rw [List.append_assoc, SlidingLog.trim, List.takeWhile_append_dropWhile, ← hpast]
    · intro instant hinstant
      rcases List.mem_append.1 hinstant with hinstant | hinstant
      · exact hgone instant hinstant
      · have hleft := List.mem_takeWhile_imp hinstant
        rwa [h.window_eq, hasLeft_iff hnow] at hleft

/-- Recording an admission. -/
theorem record (h : l.Keeps window now past) :
    SlidingLog.Keeps ⟨l.instants ++ [now], l.window, Word.add now l.window⟩ window now
      (past ++ [now]) where
  window_eq := h.window_eq
  sorted := by
    rw [List.pairwise_append]
    refine ⟨h.sorted, List.pairwise_singleton _ now, ?_⟩
    intro instant hinstant other hother
    rw [List.mem_singleton.1 hother]
    exact h.le_now instant hinstant
  le_now := by
    intro instant hinstant
    rcases List.mem_append.1 hinstant with hinstant | hinstant
    · exact h.le_now instant hinstant
    · exact (List.mem_singleton.1 hinstant).le
  expires := by
    intro instant hinstant
    -- no instant is later than the new one, so the new one leaves last
    have hle : instant ≤ now := by
      rcases List.mem_append.1 hinstant with hinstant | hinstant
      · exact h.le_now instant (h.mem_of_mem_instants hinstant)
      · exact (List.mem_singleton.1 hinstant).le
    dsimp only
    rw [Word.add, Word.add, Word.clamp, Word.clamp]
    omega
  lost := by
    obtain ⟨gone, hpast, hgone⟩ := h.lost
    exact ⟨gone, by rw [hpast, List.append_assoc], hgone⟩

/-- **An attempt goes by the trailing window:** it passes if there is room, the count
is what the window holds with the attempt itself if it passed, and the log keeps what
was admitted. -/
theorem attempt (h : l.Keeps window now past) (hnow : now < Word.max) (limit : Nat) :
    let outcome := l.attempt now window limit
    if limit ≤ trailing window now past then
      outcome.1.exceeded = true ∧ outcome.1.count = trailing window now past ∧
        outcome.2.Keeps window now past
    else
      outcome.1.exceeded = false ∧ outcome.1.count = trailing window now past + 1 ∧
        outcome.2.Keeps window now (past ++ [now]) := by
  have hsame : { l with window := Word.clamp window } = l := by rw [← h.window_eq]
  have hlength : (l.trim now).instants.length = trailing window now past := h.length_trim hnow
  intro outcome
  have houtcome : outcome = l.attempt now window limit := rfl
  rw [SlidingLog.attempt, hsame, hlength] at houtcome
  dsimp only at houtcome
  split
  · rename_i hfull
    rw [if_pos hfull] at houtcome
    rw [houtcome]
    exact ⟨rfl, rfl, h.trim hnow⟩
  · rename_i hroom
    rw [if_neg hroom] at houtcome
    rw [houtcome]
    exact ⟨rfl, rfl, (h.trim hnow).record⟩

end Keeps

end SlidingLog

/-! ## A log in its cell -/

/-- **A cell logs the admissions of the past,** in a log or, once they have all left
the window, without one. -/
def Logged (window now : Nat) (past : List Nat) (cell : Option Entry) : Prop :=
  ∃ l : SlidingLog, (cell = none ∧ l = .start window ∨ cell = some (.sliding l)) ∧
    l.Keeps window now past

namespace Logged

variable {window now : Nat} {past : List Nat} {cell after : Option Entry}

theorem none (window now : Nat) : Logged window now [] .none :=
  ⟨.start window, .inl ⟨rfl, rfl⟩, SlidingLog.keeps_start .nil (fun _ h => absurd h List.not_mem_nil)
    (fun _ h => absurd h List.not_mem_nil)⟩

theorem later {mid : Nat} (h : Logged window now past cell) (hle : now ≤ mid) :
    Logged window mid past cell := by
  obtain ⟨l, hcell, hkeeps⟩ := h
  exact ⟨l, hcell, hkeeps.later hle⟩

/-- **Nothing is lost by fading** that the window still holds. -/
theorem fades (h : Logged window now past cell) (hnow : now < Word.max) (hf : Fades now cell after) :
    Logged window now past after := by
  obtain ⟨l, hcell, hkeeps⟩ := h
  rcases hf with rfl | ⟨rfl, hfaded⟩
  · exact ⟨l, hcell, hkeeps⟩
  · rcases hcell with ⟨-, rfl⟩ | rfl
    · exact ⟨_, .inl ⟨rfl, rfl⟩, hkeeps⟩
    · -- a log that fades is over, and what it kept has left the window with it
      have hgone := hkeeps.left_of_isExpired hnow (hfaded _ rfl)
      exact ⟨_, .inl ⟨rfl, rfl⟩, SlidingLog.keeps_start hkeeps.sorted hkeeps.le_now hgone⟩

end Logged

/-- **What an attempt should be answered,** given the admissions before it. -/
def SlidingCount.Follows (window limit now : Nat) (past : List Nat) (c : SlidingCount) : Prop :=
  (c.exceeded = false ↔ trailing window now past < limit) ∧
    c.count = trailing window now past + if c.exceeded then 0 else 1

namespace Store

variable {now later window limit : Nat} {s s' : Store} {key : String} {past : List Nat}

/-- **Attempting in a cell:** the answer follows from the past, and the cell logs the
attempt if it passed. -/
theorem logged_incrementSliding (hd : s.Distinct) (hnow : now < Word.max)
    (h : Logged window now past (s.find? key)) (limit : Nat) :
    (s.incrementSliding now key window limit now).1.Follows window limit now past ∧
      Logged window now
        (past ++ if (s.incrementSliding now key window limit now).1.exceeded then [] else [now])
        ((s.incrementSliding now key window limit now).2.find? key) := by
  obtain ⟨l, hcell, hkeeps⟩ := h
  have hlog : s.slidingLog key window = l := by
    rcases hcell with ⟨hcell, rfl⟩ | hcell
    · exact slidingLog_of_none hcell window
    · exact slidingLog_of_sliding hcell window
  have hattempt := hkeeps.attempt hnow limit
  have hfades := fades_countWrite_put hd now key (.sliding (l.attempt now window limit).2)
  rw [incrementSliding, hlog]
  dsimp only at hattempt ⊢
  split at hattempt
  · rename_i hfull
    obtain ⟨hexceeded, hcount, hkeeps⟩ := hattempt
    rw [SlidingCount.Follows, hexceeded, hcount, if_pos rfl, if_pos rfl, List.append_nil]
    refine ⟨⟨iff_of_false (by decide) (not_lt.2 hfull), rfl⟩, ?_⟩
    exact Logged.fades ⟨_, .inr rfl, hkeeps⟩ hnow hfades
  · rename_i hroom
    obtain ⟨hexceeded, hcount, hkeeps⟩ := hattempt
    rw [SlidingCount.Follows, hexceeded, hcount, if_neg Bool.false_ne_true,
      if_neg Bool.false_ne_true]
    refine ⟨⟨iff_of_true rfl (not_le.1 hroom), rfl⟩, ?_⟩
    exact Logged.fades ⟨_, .inr rfl, hkeeps⟩ hnow hfades

/-- **What is asked about a log:** attempts with the window and the limit of one rule
at the time of the call, readings, and resets that fail. -/
def SlidingCall (key : String) (window limit : Nat) (j : Nat × Exchange) : Prop :=
  j.2.call.key = key →
    j.2.call = .incrementSliding key window limit j.1 ∨ j.2.call = .read key ∨
      j.2.call = .reset key ∧ ¬ j.2.IsAnswered

/-- The times of the attempts under a key that passed, in order. -/
def passes (key : String) (js : List (Nat × Exchange)) : List Nat :=
  js.filterMap fun j =>
    (j.2.slidingCount? key).bind fun c => if c.exceeded then none else some j.1

theorem passes_append (key : String) (js ks : List (Nat × Exchange)) :
    passes key (js ++ ks) = passes key js ++ passes key ks := List.filterMap_append

theorem passes_of_slidingCount? {j : Nat × Exchange} {c : SlidingCount}
    (h : j.2.slidingCount? key = some c) :
    passes key [j] = if c.exceeded then [] else [j.1] := by
  rw [passes, List.filterMap_cons, h, Option.bind_some]
  cases c.exceeded <;> rfl

theorem passes_of_slidingCount?_eq_none {j : Nat × Exchange} (h : j.2.slidingCount? key = none) :
    passes key [j] = [] := by
  rw [passes, List.filterMap_cons, h]
  rfl

/-- **Every attempt is answered as it should be,** given the admissions before the
journal and in it. -/
def AnswersFollow (key : String) (window limit : Nat) :
    (past : List Nat) → List (Nat × Exchange) → Prop
  | _, [] => True
  | past, j :: js =>
    (∀ c, j.2.slidingCount? key = some c → c.Follows window limit j.1 past) ∧
      AnswersFollow key window limit (past ++ passes key [j]) js

theorem AnswersFollow.split {before after : List (Nat × Exchange)} {j : Nat × Exchange}
    (h : AnswersFollow key window limit past (before ++ j :: after)) {c : SlidingCount}
    (hc : j.2.slidingCount? key = some c) :
    c.Follows window limit j.1 (past ++ passes key before) := by
  induction before generalizing past with
  | nil =>
    rw [passes, List.filterMap_nil, List.append_nil]
    exact h.1 c hc
  | cons first rest ih =>
    have hrest := ih h.2
    rwa [List.append_assoc, ← passes_append, List.singleton_append] at hrest

/-- **A log over a journal:** every attempt is answered as it should be, the cell logs
the admissions in the end, and they keep the pace. -/
structure LogsOver (key : String) (window limit : Nat) (past : List Nat)
    (js : List (Nat × Exchange)) (later : Nat) (cell : Option Entry) : Prop where
  answers : AnswersFollow key window limit past js
  logged : Logged window later (past ++ passes key js) cell
  paced : Paced window limit (past ++ passes key js)

namespace LogsOver

variable {j : Nat × Exchange} {js : List (Nat × Exchange)} {cell : Option Entry}

theorem nil (hl : Logged window now past cell) (hp : Paced window limit past) :
    LogsOver key window limit past [] now cell := by
  refine ⟨trivial, ?_, ?_⟩
  · rwa [passes, List.filterMap_nil, List.append_nil]
  · rwa [passes, List.filterMap_nil, List.append_nil]

/-- One more exchange in front, after which the past is what it passed. -/
theorem cons (hfollows : ∀ c, j.2.slidingCount? key = some c → c.Follows window limit j.1 past)
    (hrest : LogsOver key window limit (past ++ passes key [j]) js later cell) :
    LogsOver key window limit past (j :: js) later cell := by
  have hpast : past ++ passes key [j] ++ passes key js = past ++ passes key (j :: js) := by
    rw [List.append_assoc, ← passes_append, List.singleton_append]
  exact ⟨⟨hfollows, hrest.answers⟩, hpast ▸ hrest.logged, hpast ▸ hrest.paced⟩

/-- An exchange that is no answered attempt leaves the past as it is. -/
theorem skip (hnone : j.2.slidingCount? key = none)
    (hrest : LogsOver key window limit past js later cell) :
    LogsOver key window limit past (j :: js) later cell := by
  refine cons ?_ ?_
  · intro c hc
    rw [hnone] at hc
    cases hc
  · rwa [passes_of_slidingCount?_eq_none hnone, List.append_nil]

end LogsOver

/-- What passed under a key keeps the pace if each attempt follows from the past. -/
theorem paced_append_passes {j : Nat × Exchange} {c : SlidingCount} (hp : Paced window limit past)
    (hc : j.2.slidingCount? key = some c) (hfollows : c.Follows window limit j.1 past) :
    Paced window limit (past ++ passes key [j]) := by
  rw [passes_of_slidingCount? hc]
  split
  · rw [List.append_nil]
    exact hp
  · rename_i hpassed
    exact hp.snoc (hfollows.1.1 (by simpa using hpassed))

/-- **A store keeps a log over a journal,** wherever it is swept on the way. -/
theorem Serves.logged {js : List (Nat × Exchange)} (h : Serves now s js later s')
    (hd : s.Distinct) (hlater : later < Word.max)
    (hjs : ∀ j ∈ js, SlidingCall key window limit j)
    (hl : Logged window now past (s.find? key)) (hp : Paced window limit past) :
    LogsOver key window limit past js later (s'.find? key) := by
  induction h generalizing past with
  | nil => exact .nil hl hp
  | @answered now later s s' call js hrest ih =>
    rw [List.forall_mem_cons] at hjs
    have hnow : now < Word.max := hrest.le.trans_lt hlater
    by_cases hkey : call.key = key
    · rcases hjs.1 hkey with hcall | hcall | ⟨-, hanswered⟩
      · dsimp only at hcall
        subst hcall
        obtain ⟨hfollows, hlogged⟩ := logged_incrementSliding hd hnow hl limit
        have hhead : Exchange.slidingCount? key ⟨.incrementSliding key window limit now,
            .answered (s.answer now (.incrementSliding key window limit now)).1⟩ =
              some (s.incrementSliding now key window limit now).1 := if_pos rfl
        rw [← passes_of_slidingCount? (j := (now, _)) hhead] at hlogged
        refine .cons ?_ (ih (hd.answer now _) hlater hjs.2 hlogged (paced_append_passes hp hhead hfollows))
        intro c hc
        rw [hhead, Option.some.injEq] at hc
        rw [← hc]
        exact hfollows
      · dsimp only at hcall
        subst hcall
        exact .skip rfl (ih (hd.answer now _) hlater hjs.2 hl hp)
      · exact absurd rfl hanswered
    · have hfades := hl.fades hnow (fades_answer_of_ne hd now hkey)
      exact .skip (Exchange.slidingCount?_of_ne hkey) (ih (hd.answer now call) hlater hjs.2 hfades hp)
  | refused hx _ ih =>
    rw [List.forall_mem_cons] at hjs
    exact .skip (Exchange.slidingCount?_of_not_answered hx) (ih hd hlater hjs.2 hl hp)
  | swept hrest ih =>
    have hnow := hrest.le.trans_lt hlater
    exact ih (hd.sweep _) hlater hjs (hl.fades hnow (fades_sweep hd _ key)) hp
  | waited hle _ ih => exact ih hd hlater hjs (hl.later hle) hp

end Store

/-! ## What a limiter asks about a log -/

/-- The text of the key under which a rule logs the requests of a value. -/
def Rule.logKey (r : Rule) (space value : String) : String :=
  (CounterKey.mk r.id r.dimension value none).render space

theorem Rule.forValue_sliding {r : Rule} (ha : r.algorithm = .slidingWindow) (value : String)
    (seconds : Nat) :
    CounterKey.forValue r value seconds = ⟨r.id, r.dimension, value, none⟩ := by
  rw [CounterKey.forValue, CounterKey.bucketOf, ha]

namespace Limiter

variable {l : Limiter} {rule : Rule} {value : String} {now : Nat}

/-- Under the key of a log requests are attempted for its rule alone. -/
theorem Asks.of_logKey (hs : l.rules.Sound) (hr : rule ∈ l.rules.rules)
    (ha : rule.algorithm = .slidingWindow) {call : Call} (h : l.Asks now call)
    (hkey : call.key = rule.logKey l.settings.keySpace value) :
    call = .incrementSliding call.key rule.window rule.limit now ∨ call = .read call.key ∨
      call = .reset call.key := by
  rcases h.of_key hkey with ⟨asked, hasked, hfor, hcall⟩ | hcall
  · have hsame : asked = rule := hs.eq_of_id hasked hr (congrArg CounterKey.ruleId hfor)
    subst hsame
    rcases hcall with ⟨hfixed, -⟩ | ⟨-, hcall⟩
    · rw [ha] at hfixed
      cases hfixed
    · exact .inl hcall
  · exact .inr hcall

theorem slidingCall_of_asks (hs : l.rules.Sound) (hr : rule ∈ l.rules.rules)
    (ha : rule.algorithm = .slidingWindow) {x : Exchange} (h : l.Asks now x.call)
    (hreset : ¬ x.resets (rule.logKey l.settings.keySpace value)) :
    Store.SlidingCall (rule.logKey l.settings.keySpace value) rule.window rule.limit (now, x) := by
  intro hkey
  have hcall := h.of_logKey hs hr ha hkey
  rw [hkey] at hcall
  rcases hcall with hcall | hcall | hcall
  · exact .inl hcall
  · exact .inr (.inl hcall)
  · exact .inr (.inr ⟨hcall, fun hanswered => hreset ⟨hcall, hanswered⟩⟩)

end Limiter

/-! ## Histories -/

/-- Whether an attempt under a key passed at a happening. -/
def Happening.passes (key : String) (h : Happening) : Bool :=
  h.exchanges.any fun x => (x.slidingCount? key).any fun c => !c.exceeded

/-- Counting the times at which attempts passed. -/
theorem Store.countP_passes (key : String) (p : Nat → Bool) (js : List (Nat × Exchange)) :
    (passes key js).countP p =
      js.countP fun j => (j.2.slidingCount? key).any (fun c => !c.exceeded) && p j.1 := by
  rw [passes, List.countP_filterMap]
  refine List.countP_congr ?_
  intro j _
  cases j.2.slidingCount? key with
  | none => simp
  | some c => cases hc : c.exceeded <;> simp [hc]

namespace Service

variable {d : Disturbance} {s : Service} {commands : List Command} {rule : Rule} {value : String}

/-- **The log of a rule over a history:** if it is never reset, every attempt is
answered as the trailing window says, from where the log stood. -/
theorem logged_of_history (hd : d.OnlyOutages)
    (hreload : ∀ command ∈ commands, command.isReload = false)
    (hclock : s.backend.clock.Steady commands) (hs : s.limiter.rules.Sound)
    (hdistinct : s.backend.store.Distinct) (hr : rule ∈ s.limiter.rules.rules)
    (ha : rule.algorithm = .slidingWindow) {past : List Nat}
    (hlogged : Logged rule.window s.now past
      (s.backend.store.find? (rule.logKey s.limiter.settings.keySpace value)))
    (hpaced : Paced rule.window rule.limit past)
    (hunreset : Happening.Unreset (rule.logKey s.limiter.settings.keySpace value)
      (s.chronicle d commands)) :
    Store.LogsOver (rule.logKey s.limiter.settings.keySpace value) rule.window rule.limit past
      (Happening.journal (s.chronicle d commands)) (s.after d commands).now
      ((s.after d commands).backend.store.find?
        (rule.logKey s.limiter.settings.keySpace value)) := by
  have hlater : (s.after d commands).now < Word.max := now_after_lt hd hclock
  refine (chronicle_serves hd hclock).logged hdistinct hlater ?_ hlogged hpaced
  intro j hj
  obtain ⟨h, hh, x, hx, rfl⟩ := Happening.mem_journal.1 hj
  exact Limiter.slidingCall_of_asks hs hr ha (asks_of_mem_chronicle hreload hs hh x hx)
    (hunreset h hh x hx)

/-- **An attempt under the key of a log** was answered to a check which the rule governs
with the value, and the rule denies it if the attempt was not let through. -/
theorem verdict_of_slidingCount (hs : s.limiter.rules.Sound) (hr : rule ∈ s.limiter.rules.rules)
    (ha : rule.algorithm = .slidingWindow) {command : Command} {x : Exchange}
    (hx : x ∈ (s.happening d command).exchanges) {c : SlidingCount}
    (hc : x.slidingCount? (rule.logKey s.limiter.settings.keySpace value) = some c) :
    (s.happening d command).concerns rule value = true ∧
      (s.happening d command).report.deniesBy rule.id = c.exceeded := by
  obtain ⟨window, limit, instant, hcall⟩ := Exchange.call_of_slidingCount? hc
  have hcounts : x.call.isIncrement = true := by rw [hcall, Call.isIncrement]
  have hkey : x.call.key =
      (CounterKey.forValue rule value (s.now / 1000)).render s.limiter.settings.keySpace := by
    rw [hcall, Call.key, Rule.forValue_sliding ha, Rule.logKey]
  obtain ⟨hconcerns, heard, hheard, hdenies⟩ := hears_of_counts hs hr hx hcounts hkey
  refine ⟨hconcerns, ?_⟩
  rw [hdenies _ (hheard.eq_ofSliding hc), Observation.ofSliding]

/-- A denial by the rule is the answer to an attempt. -/
theorem exists_slidingCount_of_denies (hs : s.limiter.rules.Sound)
    (hr : rule ∈ s.limiter.rules.rules) (ha : rule.algorithm = .slidingWindow) {command : Command}
    (hconcerns : (s.happening d command).concerns rule value = true)
    (hdenies : (s.happening d command).report.deniesBy rule.id = true) :
    ∃ x ∈ (s.happening d command).exchanges, ∃ c,
      x.slidingCount? (rule.logKey s.limiter.settings.keySpace value) = some c ∧
        c.exceeded = true := by
  obtain ⟨heardValue, hheard, x, hx, o, hhears, ho⟩ := exists_hears_of_denies hs hr hdenies
  have hsame : heardValue = value := Happening.eq_of_concerns hheard hconcerns
  rw [hsame, Rule.forValue_sliding ha] at hhears
  obtain ⟨c, hc, rfl⟩ := hhears.exists_slidingCount ha
  exact ⟨x, hx, c, hc, ho⟩

/-- The attempts before a check are those of the commands before it: within the check
the log was not touched before. -/
theorem passes_before (hs : s.limiter.rules.Sound) {command : Command} {key : String}
    {xs ys : List Exchange} {x : Exchange} {c : SlidingCount}
    (hsplit : (s.happening d command).exchanges = xs ++ x :: ys)
    (hc : x.slidingCount? key = some c) (now : Nat) :
    Store.passes key (xs.map (now, ·)) = [] := by
  have hne := happening_pairwise_key_ne (d := d) hs command
  rw [hsplit, List.pairwise_append] at hne
  obtain ⟨window, limit, instant, hcall⟩ := Exchange.call_of_slidingCount? hc
  rw [Store.passes, List.filterMap_eq_nil_iff]
  intro j hj
  obtain ⟨y, hy, rfl⟩ := List.mem_map.1 hj
  have hkey : y.call.key ≠ key := by
    have hx := hne.2.2 y hy x List.mem_cons_self
    rw [hcall] at hx
    exact hx rfl
  rw [Exchange.slidingCount?_of_ne hkey]
  rfl

/-- **An attempt in a history follows from the commands before it.** -/
theorem follows_of_history (hreload : ∀ command ∈ commands, command.isReload = false)
    (hs : s.limiter.rules.Sound) {key : String} {window limit : Nat}
    (hanswers : Store.AnswersFollow key window limit []
      (Happening.journal (s.chronicle d commands)))
    {earlier later : List Happening} {h : Happening}
    (hhistory : s.chronicle d commands = earlier ++ h :: later) {x : Exchange}
    (hx : x ∈ h.exchanges) {c : SlidingCount} (hc : x.slidingCount? key = some c) :
    c.Follows window limit h.before.now (Store.passes key (Happening.journal earlier)) := by
  have hh : h ∈ s.chronicle d commands := by
    rw [hhistory]
    exact List.mem_append_cons_self
  obtain ⟨t, command, ht, rfl⟩ := exists_of_mem_chronicle hreload hh
  obtain ⟨xs, ys, hsplit⟩ := List.append_of_mem hx
  rw [← ht] at hs
  -- the journal before the attempt: the earlier happenings, and the same check so far
  have hbefore := passes_before hs hsplit hc t.now
  rw [hhistory, Happening.journal_append, Happening.journal_cons, hsplit, List.map_append,
    List.map_cons, List.append_assoc, ← List.append_assoc] at hanswers
  have hfollows := hanswers.split hc
  rw [List.nil_append, Store.passes_append] at hfollows
  change c.Follows window limit t.now
    (Store.passes key (Happening.journal earlier) ++ Store.passes key (xs.map (t.now, ·)))
    at hfollows
  rw [hbefore, List.append_nil] at hfollows
  exact hfollows

end Service

/-! ## The law -/

/-- **Sliding windows admit by the trailing window alone.** A limiter with rules that
could be made serves any commands but reloads, over a clock that never goes backward,
while outages begin and end before any call. Take a sliding-window rule and a value
whose log is not reset.

An answered attempt passes if and only if the window that trails it holds fewer
passing attempts of earlier commands than the limit, it is answered their number, with
itself if it passed, and the rule denies the check if and only if it did not pass. So
no interval as long as the window holds more checks that the rule let through than its
limit, and the rule denies no check while there is room in the trailing window. -/
theorem sliding_window_admission {rules : List Rule} {defaults : DefaultLimits} {set : RuleSet}
    (hbuild : RuleSet.build rules defaults = .ok set) (settings : LimiterSettings)
    (whitelist : Whitelist) {start : Nat} {d : Disturbance} (hd : d.OnlyOutages)
    {commands : List Command} (hreload : ∀ command ∈ commands, command.isReload = false)
    (hclock : (Clock.mk start).Steady commands) {rule : Rule} (hr : rule ∈ set.rules)
    (ha : rule.algorithm = .slidingWindow) (value : String)
    (hunreset : Happening.Unreset (rule.logKey settings.keySpace value)
      ((Service.start ⟨settings, set, whitelist⟩ start).chronicle d commands)) :
    let history := (Service.start ⟨settings, set, whitelist⟩ start).chronicle d commands
    let key := rule.logKey settings.keySpace value
    let inside (earlier : List Happening) (h : Happening) :=
      trailing rule.window h.before.now (Store.passes key (Happening.journal earlier))
    (∀ earlier h later, history = earlier ++ h :: later →
      ∀ x ∈ h.exchanges, ∀ c, x.slidingCount? key = some c →
        h.concerns rule value = true ∧ h.report.deniesBy rule.id = c.exceeded ∧
          (c.exceeded = false ↔ inside earlier h < rule.limit) ∧
          c.count = inside earlier h + if c.exceeded then 0 else 1) ∧
    (∀ t, history.countP (fun h => h.passes key &&
      decide (t < h.before.now ∧ h.before.now ≤ t + rule.window)) ≤ rule.limit) ∧
    ∀ earlier h later, history = earlier ++ h :: later → h.concerns rule value = true →
      h.report.deniesBy rule.id = true → rule.limit ≤ inside earlier h := by
  have hs : set.Sound := RuleSet.sound_of_build hbuild
  intro history key inside
  have hlogs := Service.logged_of_history
    (s := .start ⟨settings, set, whitelist⟩ start) hd hreload hclock hs Store.distinct_empty hr ha
    (Logged.none _ _) (Paced.nil _ _) hunreset
  have hfollows : ∀ earlier h later, history = earlier ++ h :: later →
      ∀ x ∈ h.exchanges, ∀ c, x.slidingCount? key = some c →
        c.Follows rule.window rule.limit h.before.now
          (Store.passes key (Happening.journal earlier)) :=
    fun earlier h later hhistory x hx c hc =>
      Service.follows_of_history hreload hs hlogs.answers hhistory hx hc
  have hmem : ∀ earlier h later, history = earlier ++ h :: later → h ∈ history := by
    intro earlier h later hhistory
    rw [hhistory]
    exact List.mem_append_cons_self
  refine ⟨?_, ?_, ?_⟩
  · intro earlier h later hhistory x hx c hc
    have hfollow := hfollows earlier h later hhistory x hx c hc
    obtain ⟨t, command, ht, rfl⟩ :=
      Service.exists_of_mem_chronicle hreload (hmem earlier h later hhistory)
    change t.limiter = ⟨settings, set, whitelist⟩ at ht
    obtain ⟨hconcerns, hdenies⟩ := Service.verdict_of_slidingCount (d := d) (s := t)
      (by rw [ht]; exact hs) (by rw [ht]; exact hr) ha hx (by rw [ht]; exact hc)
    exact ⟨hconcerns, hdenies, hfollow⟩
  · -- every check that the rule let through left a passing attempt at its time
    intro t
    have hpace := hlogs.paced t
    rw [List.nil_append, Store.countP_passes] at hpace
    refine (Happening.countP_le_countP_journal ?_).trans hpace
    intro h _ hpasses
    rw [Bool.and_eq_true, Happening.passes, List.any_eq_true] at hpasses
    obtain ⟨⟨x, hx, hpassed⟩, htime⟩ := hpasses
    exact ⟨x, hx, by rw [Bool.and_eq_true]; exact ⟨hpassed, htime⟩⟩
  · intro earlier h later hhistory hconcerns hdenies
    have hh := hmem earlier h later hhistory
    obtain ⟨t, command, ht, rfl⟩ := Service.exists_of_mem_chronicle hreload hh
    change t.limiter = ⟨settings, set, whitelist⟩ at ht
    obtain ⟨x, hx, c, hc, hexceeded⟩ := Service.exists_slidingCount_of_denies
      (by rw [ht]; exact hs) (by rw [ht]; exact hr) ha hconcerns hdenies
    rw [ht] at hc
    have hfollow := hfollows earlier _ later hhistory x hx c hc
    rw [SlidingCount.Follows, hexceeded] at hfollow
    by_contra hroom
    exact absurd (hfollow.1.2 (not_le.1 hroom)) (by decide)

/-! ## A history -/

namespace SlidingWindowSample

/-- One request in any second from each address. -/
def rule : Rule := { Rule.basic "search" .address 1 1 with algorithm := .slidingWindow }

def settings : LimiterSettings := ⟨true, true, 50, "turnstile"⟩

def request : Request := .describe "GET" "/search" "10.0.0.1"

/-- A request in the first second after the epoch, one that comes too early after it,
one that meets a failing store, and one that comes exactly a second later. -/
def commands : List Command :=
  [.check request, .advance 999, .check request, .purge,
    .setOutage (some ⟨none, ["sliding"], 0⟩), .check request, .setOutage none, .advance 1,
    .check request]

end SlidingWindowSample

open SlidingWindowSample in
/-- Of the four requests the rule denies the second alone, which came within a second
of the first; and no second holds more than one that it let through. -/
theorem sliding_window_admission_of_search :
    let history := (Service.start ⟨settings, ⟨[rule]⟩, .ofConfig .empty⟩ 500).chronicle .none commands
    history.map (·.report.deniesBy "search") =
        [false, false, true, false, false, false, false, false, false] ∧
      history.map (·.passes (rule.logKey "turnstile" "10.0.0.1")) =
        [true, false, false, false, false, false, false, false, true] ∧
      ∀ t, history.countP (fun h => h.passes (rule.logKey "turnstile" "10.0.0.1") &&
        decide (t < h.before.now ∧ h.before.now ≤ t + rule.window)) ≤ 1 := by
  have hbuild : RuleSet.build [rule] .empty = .ok ⟨[rule]⟩ := rfl
  have hreload : ∀ command ∈ commands, command.isReload = false := by decide
  have hclock : (Clock.mk 500).Steady commands := by decide
  have h := sliding_window_admission hbuild settings (.ofConfig .empty) Disturbance.onlyOutages_none
    hreload hclock List.mem_cons_self rfl "10.0.0.1" (by decide +kernel)
  exact ⟨by decide +kernel, by decide +kernel, h.2.1⟩

end Admission
