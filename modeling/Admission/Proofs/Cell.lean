/-
A counter store as seen from one key.

What stands under a key changes in two ways: by an operation on that key, and by
fading, when a sweep takes away an entry whose time is over. Operations on other
keys can only do the second (`fades_answer_of_ne`), because each of them may be the
write that sweeps. So a law about a key is a law about one `Option Entry`, its
cell, as long as it holds up when the cell fades.
-/
import Admission.Store.Call
import Mathlib

set_option autoImplicit false

namespace Admission

/-! ## Time and expiry -/

/-- A log is over from the very instant at which it expires. -/
theorem SlidingLog.isExpired_iff (l : SlidingLog) (now : Nat) :
    l.isExpired now = true ↔ l.expiresAt ≤ now := decide_eq_true_iff

/-- A counter is alive until its time is over. -/
theorem FixedCounter.isExpired_eq_false {c : FixedCounter} {now : Nat} (h : now < c.expiresAt) :
    c.isExpired now = false := decide_eq_false (not_le_of_gt h)

/-- A counter that is begun before the end of time is alive. -/
theorem FixedCounter.isExpired_start {now window : Nat} (hnow : now < Word.max)
    (hwindow : 0 < window) : (start now window).isExpired now = false := by
  rw [isExpired, start, decide_eq_false_iff_not, Word.add, Word.clamp, Word.clamp]
  dsimp only
  omega

/-- Once over, always over. -/
theorem Entry.isExpired_mono {e : Entry} {now later : Nat} (hle : now ≤ later)
    (h : e.isExpired now = true) : e.isExpired later = true := by
  cases e with
  | fixed c => exact decide_eq_true ((of_decide_eq_true h).trans hle)
  | sliding l => exact decide_eq_true ((of_decide_eq_true h).trans hle)
  | marker expiresAt =>
    cases expiresAt with
    | none => exact h
    | some at_ => exact decide_eq_true ((of_decide_eq_true h).trans hle)

/-! ## Fading -/

/-- Nothing alive stands in a cell. -/
def Faded (now : Nat) (cell : Option Entry) : Prop :=
  ∀ e, cell = some e → e.isExpired now = true

theorem Faded.none (now : Nat) : Faded now .none := by
  intro e h
  cases h

theorem faded_some {now : Nat} {e : Entry} (h : e.isExpired now = true) : Faded now (some e) := by
  rintro _ ⟨⟩
  exact h

/-- What is over stays over, so a cell that has faded stays faded as time goes on. -/
theorem Faded.later {now later : Nat} {cell : Option Entry} (hle : now ≤ later)
    (h : Faded now cell) : Faded later cell :=
  fun e he => Entry.isExpired_mono hle (h e he)

theorem not_faded_some {now : Nat} {e : Entry} (h : e.isExpired now = false) :
    ¬ Faded now (some e) := by
  intro hf
  rw [hf e rfl] at h
  cases h

/-- A cell that has not faded holds something alive. -/
theorem exists_of_not_faded {now : Nat} {cell : Option Entry} (h : ¬ Faded now cell) :
    ∃ e, cell = some e ∧ e.isExpired now = false := by
  cases cell with
  | none => exact absurd (Faded.none now) h
  | some e =>
    refine ⟨e, rfl, ?_⟩
    rw [Bool.eq_false_iff]
    exact fun he => h (faded_some he)

/-- **A cell fades** if it stays as it is or loses an entry whose time is over. -/
def Fades (now : Nat) (before after : Option Entry) : Prop :=
  after = before ∨ after = none ∧ Faded now before

theorem Fades.refl (now : Nat) (cell : Option Entry) : Fades now cell cell := .inl rfl

/-- Fading twice is fading. -/
theorem Fades.trans {now : Nat} {a b c : Option Entry} (h₁ : Fades now a b)
    (h₂ : Fades now b c) : Fades now a c := by
  rcases h₁ with rfl | ⟨rfl, hf⟩
  · exact h₂
  · rcases h₂ with rfl | ⟨rfl, _⟩
    · exact .inr ⟨rfl, hf⟩
    · exact .inr ⟨rfl, hf⟩

/-- Fading brings nothing back. -/
theorem Fades.faded {now : Nat} {a b : Option Entry} (h : Fades now a b) (hf : Faded now a) :
    Faded now b := by
  rcases h with rfl | ⟨rfl, _⟩
  · exact hf
  · exact Faded.none now

/-- What may fade now may fade at any later time. -/
theorem Fades.later {now later : Nat} {a b : Option Entry} (h : Fades now a b)
    (hle : now ≤ later) : Fades later a b := by
  rcases h with h | ⟨h, hf⟩
  · exact .inl h
  · exact .inr ⟨h, hf.later hle⟩

/-- A cell that holds something alive keeps it. -/
theorem Fades.eq_of_alive {now : Nat} {e : Entry} {after : Option Entry}
    (h : Fades now (some e) after) (he : e.isExpired now = false) : after = some e := by
  rcases h with rfl | ⟨_, hf⟩
  · rfl
  · exact absurd hf (not_faded_some he)

namespace Store

/-! ## Each key once -/

/-- Each key is there once. -/
def Distinct (s : Store) : Prop := (s.entries.map Prod.fst).Nodup

theorem distinct_empty : empty.Distinct := List.nodup_nil

/-- An entry is set in place, or behind the others if its key is new. -/
theorem map_fst_setEntry (key : String) (entry : Entry) (es : List (String × Entry)) :
    (setEntry key entry es).map Prod.fst =
      if key ∈ es.map Prod.fst then es.map Prod.fst else es.map Prod.fst ++ [key] := by
  induction es with
  | nil => rfl
  | cons head rest ih =>
    obtain ⟨k, e⟩ := head
    by_cases hk : k = key
    · subst hk
      simp [setEntry]
    · rw [setEntry, if_neg hk, List.map_cons, ih]
      by_cases hmem : key ∈ rest.map Prod.fst
      · simp [hmem]
      · simp [hmem, Ne.symm hk]

theorem Distinct.put {s : Store} (h : s.Distinct) (key : String) (entry : Entry) :
    (s.put key entry).Distinct := by
  unfold Distinct Store.put
  rw [map_fst_setEntry]
  split
  · exact h
  · rename_i hmem
    exact h.append (List.nodup_singleton key) (by simpa using hmem)

theorem Distinct.filter {s : Store} (h : s.Distinct) (p : String × Entry → Bool) :
    ((s.entries.filter p).map Prod.fst).Nodup :=
  h.sublist (List.filter_sublist.map Prod.fst)

theorem Distinct.erase {s : Store} (h : s.Distinct) (key : String) : (s.erase key).Distinct :=
  h.filter _

theorem Distinct.sweep {s : Store} (h : s.Distinct) (now : Nat) : (s.sweep now).Distinct :=
  h.filter _

/-- Counting a write may sweep, which repeats no key. -/
theorem Distinct.countWrite {s : Store} (h : s.Distinct) (now : Nat) :
    (s.countWrite now).Distinct := by
  unfold Store.countWrite
  dsimp only
  split
  · exact Distinct.sweep (s := { s with writes := s.writes + 1 }) h now
  · exact h

/-- **No call brings a key in twice.** -/
theorem Distinct.answer {s : Store} (h : s.Distinct) (now : Nat) (call : Call) :
    (s.answer now call).2.Distinct := by
  cases call with
  | incrementFixed key window => exact (h.put _ _).countWrite now
  | incrementSliding key window limit instant => exact (h.put _ _).countWrite now
  | read key => exact h
  | reset key => exact h.erase key
  | setMarker key ttl => exact (h.put _ _).countWrite now
  | hasMarker key => exact h

/-! ## Sweeping -/

/-- Where each key is there once, an entry that is filtered out uncovers no other. -/
theorem lookup_filter {es : List (String × Entry)} (h : (es.map Prod.fst).Nodup)
    (p : Entry → Bool) (key : String) :
    (es.filter fun e => p e.2).lookup key = (es.lookup key).filter p := by
  induction es with
  | nil => rfl
  | cons head rest ih =>
    obtain ⟨k, e⟩ := head
    rw [List.map_cons, List.nodup_cons] at h
    by_cases hkey : key = k
    · subst hkey
      rw [List.lookup_cons_self, Option.filter_some, List.filter_cons]
      split
      · rw [List.lookup_cons_self]
      · -- nothing further behind can show up, since the key is there once
        have hnone : rest.lookup key = none := by
          rw [List.lookup_eq_none_iff]
          intro q hq
          rw [bne_iff_ne]
          intro hk
          exact h.1 (List.mem_map.2 ⟨q, hq, hk.symm⟩)
        rw [ih h.2, hnone, Option.filter_none]
    · have hb : (key == k) = false := beq_eq_false_iff_ne.2 hkey
      rw [List.lookup_cons, hb, List.filter_cons]
      split
      · rw [List.lookup_cons, hb]
        exact ih h.2
      · exact ih h.2

/-- A sweep leaves under a key what is alive there. -/
theorem find?_sweep {s : Store} (h : s.Distinct) (now : Nat) (key : String) :
    (s.sweep now).find? key = s.live? now key :=
  lookup_filter h (fun e => !e.isExpired now) key

/-- **A sweep lets each cell fade,** and does nothing else to it. -/
theorem fades_sweep {s : Store} (h : s.Distinct) (now : Nat) (key : String) :
    Fades now (s.find? key) ((s.sweep now).find? key) := by
  -- what a sweep leaves is what is alive, so the cell loses nothing else
  rw [find?_sweep h, live?]
  cases hcell : s.find? key with
  | none => exact .inl rfl
  | some e =>
    rw [Option.filter_some]
    cases he : e.isExpired now with
    | false => exact .inl (by simp)
    | true =>
      exact .inr ⟨by simp, faded_some he⟩

/-- Every so many writes there is a sweep, so counting a write does at most as much. -/
theorem fades_countWrite {s : Store} (h : s.Distinct) (now : Nat) (key : String) :
    Fades now (s.find? key) ((s.countWrite now).find? key) := by
  unfold countWrite
  dsimp only
  split
  · exact fades_sweep (s := { s with writes := s.writes + 1 }) h now key
  · exact .inl rfl

/-! ## Operations on one key -/

/-- What is put under a key stays, or fades at once. -/
theorem fades_countWrite_put {s : Store} (h : s.Distinct) (now : Nat) (key : String)
    (entry : Entry) :
    Fades now (some entry) (((s.put key entry).countWrite now).find? key) := by
  -- the write itself may be the one that sweeps
  have hf := fades_countWrite (h.put key entry) now key
  rwa [find?_put, if_pos rfl] at hf

/-- A write under one key lets every other cell fade at most. -/
theorem fades_countWrite_put_of_ne {s : Store} (h : s.Distinct) (now : Nat) {key other : String}
    (hne : other ≠ key) (entry : Entry) :
    Fades now (s.find? other) (((s.put key entry).countWrite now).find? other) := by
  have hf := fades_countWrite (h.put key entry) now other
  rwa [find?_put, if_neg hne] at hf

/-- **An operation lets the other keys fade at most.** -/
theorem fades_answer_of_ne {s : Store} (h : s.Distinct) (now : Nat) {call : Call} {key : String}
    (hne : call.key ≠ key) : Fades now (s.find? key) ((s.answer now call).2.find? key) := by
  cases call with
  | incrementFixed k window => exact fades_countWrite_put_of_ne h now (Ne.symm hne) _
  | incrementSliding k window limit instant =>
    exact fades_countWrite_put_of_ne h now (Ne.symm hne) _
  | read k => exact .refl _ _
  | reset k =>
    have hk : key ≠ k := Ne.symm hne
    refine .inl ?_
    rw [answer, reset, find?_erase, if_neg hk]
  | setMarker k ttl => exact fades_countWrite_put_of_ne h now (Ne.symm hne) _
  | hasMarker k => exact .refl _ _

/-- Where nothing is alive, an increment begins a counter. -/
theorem liveFixed_of_faded {s : Store} {now : Nat} {key : String} (h : Faded now (s.find? key))
    (window : Nat) : s.liveFixed now key window = FixedCounter.start now window := by
  unfold liveFixed
  split
  · rename_i c hc
    exact if_pos (h _ hc)
  · rfl

/-- A counter that is alive is gone on with, whatever window is asked for. -/
theorem liveFixed_of_alive {s : Store} {now : Nat} {key : String} {c : FixedCounter}
    (h : s.find? key = some (.fixed c)) (hc : c.isExpired now = false) (window : Nat) :
    s.liveFixed now key window = c := by
  unfold liveFixed
  rw [h]
  simp [hc]

theorem slidingLog_of_none {s : Store} {key : String} (h : s.find? key = none) (window : Nat) :
    s.slidingLog key window = SlidingLog.start window := by
  unfold slidingLog
  rw [h]

/-- A log is gone on with as it stands, whether or not it is over. -/
theorem slidingLog_of_sliding {s : Store} {key : String} {l : SlidingLog}
    (h : s.find? key = some (.sliding l)) (window : Nat) : s.slidingLog key window = l := by
  unfold slidingLog
  rw [h]

theorem live?_of_faded {s : Store} {now : Nat} {key : String} (h : Faded now (s.find? key)) :
    s.live? now key = none := by
  rw [live?, Option.filter_eq_none_iff]
  intro e he
  simp [h e he]

/-- What is alive is found, of whatever kind it is. -/
theorem live?_of_alive {s : Store} {now : Nat} {key : String} {e : Entry}
    (h : s.find? key = some e) (he : e.isExpired now = false) : s.live? now key = some e := by
  rw [live?, h, Option.filter_some, he]
  rfl

/-- What is alive outlives any fading. -/
theorem live?_of_fades {s s' : Store} {now : Nat} {key : String}
    (h : Fades now (s.find? key) (s'.find? key)) : s'.live? now key = s.live? now key := by
  rcases h with h | ⟨h, hf⟩
  · rw [live?, live?, h]
  · rw [live?_of_faded hf, live?, h, Option.filter_none]

/-- An operation leaves what is alive under other keys alive. -/
theorem live?_answer_of_ne {s : Store} (h : s.Distinct) (now : Nat) {call : Call} {key : String}
    (hne : call.key ≠ key) : (s.answer now call).2.live? now key = s.live? now key :=
  live?_of_fades (fades_answer_of_ne h now hne)

end Store

end Admission
