/-
What becomes of a sliding window when callers arrive out of order.

An attempt is to forget every entry that has left its window. A log forgets from the front only,
in the order in which entries were recorded, and a caller brings its own instant along; so an
entry that has left can stand behind one that has not, and then it is counted. This is the one
way in which attempts are answered otherwise than promised, next to a sweep that takes a log with
entries inside the window (`Fair`): each of them shows in the very answer
(`attempt_promised_iff`), and without them every answer is as promised (`promised_iff_fair`).
-/
import Admission.Proofs.SlidingWindow

set_option autoImplicit false

namespace Admission

/-! ## The promise -/

namespace Promise

/-- An entry that is at or before the beginning of the window of an attempt. A window that is
longer than the clock goes counts as the longest there is. -/
def Left (window instant entry : Nat) : Prop := entry + Word.clamp window ≤ instant

instance (window instant entry : Nat) : Decidable (Left window instant entry) :=
  inferInstanceAs (Decidable (_ ≤ _))

/-- **What remains for an attempt** of what was recorded: all that has not left. -/
def remaining (window instant : Nat) (recorded : List Nat) : List Nat :=
  recorded.filter fun entry => !decide (Left window instant entry)

/-- **What an attempt leaves recorded:** what remained for it, and its own instant if that was
less than the limit. -/
def record (window limit instant : Nat) (recorded : List Nat) : List Nat :=
  if limit ≤ (remaining window instant recorded).length then remaining window instant recorded
  else remaining window instant recorded ++ [instant]

end Promise

open Promise

/-- **An attempt that is answered as promised,** given what was recorded. -/
structure SlidingCount.Promised (c : SlidingCount) (window limit instant : Nat)
    (recorded : List Nat) : Prop where
  exceeded : c.exceeded = true ↔ limit ≤ (remaining window instant recorded).length
  count : c.count = (record window limit instant recorded).length

/-! ## Forgetting from the front -/

/-- **Dropping from the front is forgetting everything** exactly if nothing to be forgotten
stands behind something to be kept. -/
theorem dropWhile_eq_filter_iff {α : Type} {p : α → Bool} {l : List α} :
    (l.dropWhile p).length = (l.filter fun a => !p a).length ↔
      l.Pairwise fun a b => p b = true → p a = true := by
  constructor
  · intro h
    induction l with
    | nil => exact .nil
    | cons a rest ih =>
      rw [List.pairwise_cons]
      by_cases ha : p a = true
      · rw [List.dropWhile_cons_of_pos ha, List.filter_cons_of_neg (by simpa using ha)] at h
        exact ⟨fun _ _ _ => ha, ih h⟩
      · rw [List.dropWhile_cons_of_neg ha, List.filter_cons_of_pos (by simpa using ha),
          List.length_cons, List.length_cons, Nat.add_right_cancel_iff, eq_comm,
          List.length_filter_eq_length_iff] at h
        have hrest : ∀ b ∈ rest, ¬ p b = true := fun b hb => by simpa using h b hb
        refine ⟨fun b hb hpb => absurd hpb (hrest b hb), List.pairwise_of_forall_mem_list ?_⟩
        exact fun b _ c hc hpc => absurd hpc (hrest c hc)
  · intro h
    rw [dropWhile_eq_filter_of_pairwise h]

namespace SlidingLog

theorem hasLeft_eq_decide (window instant : Nat) :
    hasLeft (Word.clamp window) instant = fun entry => decide (Left window instant entry) := by
  funext entry
  rw [hasLeft, decide_eq_decide, Left]
  omega

/-- What an attempt finds in a log. -/
def found (l : SlidingLog) (window instant : Nat) : List Nat :=
  l.instants.dropWhile (hasLeft (Word.clamp window) instant)

variable {l : SlidingLog} {window limit instant : Nat} {recorded : List Nat}

/-- An attempt goes by the number of entries that it finds. -/
theorem attempt_of_full (h : limit ≤ (l.found window instant).length) :
    (l.attempt instant window limit).1.count = (l.found window instant).length ∧
      (l.attempt instant window limit).1.exceeded = true ∧
      (l.attempt instant window limit).2.instants = l.found window instant := by
  have hattempt : l.attempt instant window limit = _ := if_pos h
  rw [hattempt]
  exact ⟨rfl, rfl, rfl⟩

theorem attempt_of_room (h : ¬ limit ≤ (l.found window instant).length) :
    (l.attempt instant window limit).1.count = (l.found window instant).length + 1 ∧
      (l.attempt instant window limit).1.exceeded = false ∧
      (l.attempt instant window limit).2.instants = l.found window instant ++ [instant] := by
  have hattempt : l.attempt instant window limit = _ := if_neg h
  rw [hattempt]
  exact ⟨rfl, rfl, rfl⟩

/-- **An attempt is answered as promised** exactly if it finds as many entries as should remain:
too many or too few show in the count, or in the verdict. -/
theorem attempt_promised_iff :
    (l.attempt instant window limit).1.Promised window limit instant recorded ↔
      (l.found window instant).length = (remaining window instant recorded).length := by
  constructor
  · rintro ⟨hexceeded, hcount⟩
    by_cases hfull : limit ≤ (l.found window instant).length
    · obtain ⟨hfound, hyes, -⟩ := attempt_of_full hfull
      rw [hfound, record, if_pos (hexceeded.1 hyes)] at hcount
      exact hcount
    · obtain ⟨hfound, hno, -⟩ := attempt_of_room hfull
      have hroom : ¬ limit ≤ (remaining window instant recorded).length := by
        rw [← hexceeded, hno]
        exact Bool.false_ne_true
      rw [hfound, record, if_neg hroom, List.length_append, List.length_singleton] at hcount
      omega
  · intro hsame
    by_cases hfull : limit ≤ (l.found window instant).length
    · obtain ⟨hfound, hyes, -⟩ := attempt_of_full hfull
      rw [hsame] at hfull hfound
      exact ⟨iff_of_true hyes hfull, by rw [hfound, record, if_pos hfull]⟩
    · obtain ⟨hfound, hno, -⟩ := attempt_of_room hfull
      rw [hsame] at hfull hfound
      refine ⟨iff_of_false (by simp [hno]) hfull, ?_⟩
      rw [hfound, record, if_neg hfull, List.length_append, List.length_singleton]

/-- What an attempt leaves in a log that finds what should remain. -/
theorem instants_attempt (h : l.found window instant = remaining window instant recorded) :
    (l.attempt instant window limit).2.instants = record window limit instant recorded := by
  by_cases hfull : limit ≤ (l.found window instant).length
  · rw [(attempt_of_full hfull).2.2, h, record, if_pos (h ▸ hfull)]
  · rw [(attempt_of_room hfull).2.2, h, record, if_neg (h ▸ hfull)]

end SlidingLog

/-! ## One attempt -/

/-- **What an attempt has to meet to be answered as promised:** no entry that has left stands
behind one that has not; and if the log is not there, nothing is recorded that has not left. -/
structure Fair (window instant : Nat) (recorded : List Nat) (cell : Option Entry) : Prop where
  ordered : recorded.Pairwise fun earlier later =>
    Left window instant later → Left window instant earlier
  swept : cell = none → ∀ entry ∈ recorded, Left window instant entry

/-- **A cell holds what is recorded,** or it was swept. -/
def Holds (recorded : List Nat) (cell : Option Entry) : Prop :=
  ∀ e, cell = some e → ∃ l : SlidingLog, e = .sliding l ∧ l.instants = recorded

namespace Holds

variable {recorded : List Nat} {cell after : Option Entry} {now : Nat}

theorem none (recorded : List Nat) : Holds recorded .none := nofun

theorem sliding (l : SlidingLog) : Holds l.instants (some (.sliding l)) := by
  rintro _ ⟨⟩
  exact ⟨l, rfl, rfl⟩

theorem fades (h : Holds recorded cell) (hf : Fades now cell after) : Holds recorded after := by
  rcases hf with rfl | ⟨rfl, -⟩
  · exact h
  · exact Holds.none recorded

end Holds

namespace Store

variable {s : Store} {key : String} {window limit instant : Nat} {recorded : List Nat}

/-- What an attempt finds that is fair is what should remain. -/
theorem found_of_fair (h : Holds recorded (s.find? key))
    (hfair : Fair window instant recorded (s.find? key)) :
    (s.slidingLog key window).found window instant = remaining window instant recorded := by
  cases hcell : s.find? key with
  | none =>
    have hgone : remaining window instant recorded = [] := by
      rw [remaining, List.filter_eq_nil_iff]
      intro entry hentry
      simp [hfair.swept hcell entry hentry]
    rw [slidingLog_of_none hcell, hgone]
    rfl
  | some e =>
    obtain ⟨l, rfl, rfl⟩ := h e hcell
    rw [slidingLog_of_sliding hcell, SlidingLog.found, SlidingLog.hasLeft_eq_decide, remaining]
    exact dropWhile_eq_filter_of_pairwise (by simpa using hfair.ordered)

/-- **An attempt is fair if it finds as many entries as should remain.** -/
theorem fair_of_length (h : Holds recorded (s.find? key))
    (hlength : ((s.slidingLog key window).found window instant).length =
      (remaining window instant recorded).length) :
    Fair window instant recorded (s.find? key) := by
  cases hcell : s.find? key with
  | none =>
    rw [slidingLog_of_none hcell] at hlength
    have hgone : remaining window instant recorded = [] := List.length_eq_zero_iff.1 hlength.symm
    rw [remaining, List.filter_eq_nil_iff] at hgone
    have hleft : ∀ entry ∈ recorded, Left window instant entry := by simpa using hgone
    refine ⟨?_, fun _ => hleft⟩
    exact List.pairwise_of_forall_mem_list fun entry hentry _ _ _ => hleft entry hentry
  | some e =>
    obtain ⟨l, rfl, rfl⟩ := h e hcell
    rw [slidingLog_of_sliding hcell, SlidingLog.found, SlidingLog.hasLeft_eq_decide, remaining,
      dropWhile_eq_filter_iff] at hlength
    exact ⟨by simpa using hlength, nofun⟩

/-- **An attempt is answered as promised exactly if it is fair.** -/
theorem incrementSliding_promised_iff (h : Holds recorded (s.find? key)) (now : Nat) :
    (s.incrementSliding now key window limit instant).1.Promised window limit instant recorded ↔
      Fair window instant recorded (s.find? key) := by
  have hanswer : (s.incrementSliding now key window limit instant).1 =
      ((s.slidingLog key window).attempt instant window limit).1 := rfl
  rw [hanswer, SlidingLog.attempt_promised_iff]
  exact ⟨fair_of_length h, fun hfair => by rw [found_of_fair h hfair]⟩

/-- After a fair attempt the cell holds what is recorded. -/
theorem holds_incrementSliding (hd : s.Distinct) (h : Holds recorded (s.find? key))
    (hfair : Fair window instant recorded (s.find? key)) (now limit : Nat) :
    Holds (record window limit instant recorded)
      ((s.incrementSliding now key window limit instant).2.find? key) := by
  have hlog : ((s.slidingLog key window).attempt instant window limit).2.instants =
      record window limit instant recorded := SlidingLog.instants_attempt (found_of_fair h hfair)
  rw [← hlog]
  exact (Holds.sliding _).fades (fades_countWrite_put hd now key _)

end Store

/-! ## Callers of one key -/

/-- **What happens to a store while one key is only attempted:** attempts on the key, each with an
instant of its own, and whatever calls on other keys. The store's time may be anything. -/
inductive Visit (key : String)
  | attempt (now window limit instant : Nat)
  | elsewhere (now : Nat) (call : Call) (h : call.key ≠ key)

namespace Visit

variable {key : String}

/-- The store after a visit. -/
def store (s : Store) : Visit key → Store
  | attempt now window limit instant => (s.incrementSliding now key window limit instant).2
  | elsewhere now call _ => (s.answer now call).2

/-- What is recorded after a visit. -/
def recorded (before : List Nat) : Visit key → List Nat
  | attempt _ window limit instant => record window limit instant before
  | elsewhere .. => before

/-- The store after visits to an empty one. -/
def storeAfter (visits : List (Visit key)) : Store := visits.foldl store .empty

/-- What is recorded after visits. -/
def recordedAfter (visits : List (Visit key)) : List Nat := visits.foldl recorded []

variable {visits before after : List (Visit key)} {visit : Visit key}

theorem storeAfter_concat : storeAfter (visits ++ [visit]) = visit.store (storeAfter visits) :=
  List.foldl_concat ..

theorem recordedAfter_concat :
    recordedAfter (visits ++ [visit]) = visit.recorded (recordedAfter visits) :=
  List.foldl_concat ..

theorem distinct_storeAfter (visits : List (Visit key)) : (storeAfter visits).Distinct := by
  induction visits using List.reverseRecOn with
  | nil => exact Store.distinct_empty
  | append_singleton visits visit ih =>
    rw [storeAfter_concat]
    cases visit with
    | attempt now window limit instant =>
      exact ih.answer now (.incrementSliding key window limit instant)
    | elsewhere now call _ => exact ih.answer now call

/-- The instant that an attempt brings along. -/
def instant? : Visit key → Option Nat
  | attempt _ _ _ instant => some instant
  | elsewhere .. => none

/-- The instants of attempts, in the order of the attempts. -/
def instants (visits : List (Visit key)) : List Nat := visits.filterMap instant?

/-- **What holds at each attempt,** given the visits before it. -/
def AtEach (visits : List (Visit key))
    (P : (before : List (Visit key)) → (now window limit instant : Nat) → Prop) : Prop :=
  ∀ before now window limit instant after,
    visits = before ++ .attempt now window limit instant :: after →
      P before now window limit instant

variable {P Q : List (Visit key) → Nat → Nat → Nat → Nat → Prop}

theorem AtEach.of_append (h : AtEach (before ++ after) P) : AtEach before P := by
  rintro first now window limit instant rest rfl
  exact h first now window limit instant (rest ++ after) (by simp)

theorem AtEach.imp (h : AtEach visits P) (hPQ : ∀ before now window limit instant,
    P before now window limit instant → Q before now window limit instant) : AtEach visits Q :=
  fun before now window limit instant after hsplit =>
    hPQ before now window limit instant (h before now window limit instant after hsplit)

/-- An attempt after these visits is answered as promised. -/
def Promised (before : List (Visit key)) (now window limit instant : Nat) : Prop :=
  ((storeAfter before).incrementSliding now key window limit instant).1.Promised
    window limit instant (recordedAfter before)

/-- **As long as attempts are fair, or answered as promised, the key holds what is recorded.** -/
theorem holds_storeAfter (h : AtEach visits fun before now window limit instant =>
    Promised before now window limit instant ∨
      Fair window instant (recordedAfter before) ((storeAfter before).find? key)) :
    Holds (recordedAfter visits) ((storeAfter visits).find? key) := by
  induction visits using List.reverseRecOn with
  | nil => exact Holds.none _
  | append_singleton visits visit ih =>
    have hbefore := ih h.of_append
    rw [storeAfter_concat, recordedAfter_concat]
    cases visit with
    | attempt now window limit instant =>
      -- that it was answered as promised shows that it was fair, since the key held what was recorded
      have hfair : Fair window instant (recordedAfter visits) ((storeAfter visits).find? key) := by
        rcases h visits now window limit instant [] rfl with hpromised | hfair
        · exact (Store.incrementSliding_promised_iff hbefore now).1 hpromised
        · exact hfair
      exact Store.holds_incrementSliding (distinct_storeAfter visits) hbefore hfair now limit
    | elsewhere now call hne =>
      exact hbefore.fades (Store.fades_answer_of_ne (distinct_storeAfter visits) now hne)

/-- What is recorded are instants of attempts, in their order. -/
theorem recordedAfter_sublist (visits : List (Visit key)) :
    (recordedAfter visits).Sublist (instants visits) := by
  induction visits using List.reverseRecOn with
  | nil => exact .slnil
  | append_singleton visits visit ih =>
    rw [recordedAfter_concat, instants, List.filterMap_append]
    cases visit with
    | attempt now window limit instant =>
      have hremaining : (remaining window instant (recordedAfter visits)).Sublist
          (instants visits) := List.filter_sublist.trans ih
      show (record window limit instant (recordedAfter visits)).Sublist
        (instants visits ++ [instant])
      rw [record]
      split
      · exact hremaining.trans (List.sublist_append_left _ _)
      · exact hremaining.append (List.Sublist.refl _)
    | elsewhere now call hne =>
      exact ih.trans (List.sublist_append_left _ _)

/-- In what was recorded in order, what has left stands in front. -/
theorem ordered_of_pairwise (h : (instants (before ++ after)).Pairwise (· ≤ ·))
    (window instant : Nat) :
    (recordedAfter before).Pairwise fun earlier later =>
      Left window instant later → Left window instant earlier := by
  rw [instants, List.filterMap_append] at h
  refine ((List.pairwise_append.1 h).1.sublist (recordedAfter_sublist before)).imp ?_
  intro earlier later hle hleft
  exact (Nat.add_le_add_right hle _).trans hleft

end Visit

/-! ## The law -/

open Visit in
/-- **When attempts are answered as promised.** Visit an empty store as you like, with attempts on
one key, of whatever windows, limits and instants, and with any calls on other keys.

An attempt is promised to forget every recorded entry at or before the beginning of its window, to
be refused if and only if at least as many as the limit remain, to be recorded otherwise, and to
return how many entries there are then. Every attempt is answered so if and only if every attempt
is fair: it meets no entry that has left behind one that has not, and if the log was swept away,
nothing that was recorded is inside its window. Then the log holds what is recorded, unless it
was swept.

If attempts arrive in the order of their instants, there are no entries out of order; then only a
sweep can break the promise. -/
theorem promised_iff_fair (key : String) (visits : List (Visit key)) :
    (AtEach visits Promised ↔
      AtEach visits fun before _ window _ instant =>
        Fair window instant (recordedAfter before) ((storeAfter before).find? key)) ∧
    (AtEach visits Promised → Holds (recordedAfter visits) ((storeAfter visits).find? key)) ∧
    ((instants visits).Pairwise (· ≤ ·) →
      (AtEach visits fun before _ window _ instant => (storeAfter before).find? key = none →
        ∀ entry ∈ recordedAfter before, Left window instant entry) →
      AtEach visits Promised) := by
  have hholds : AtEach visits Promised →
      Holds (recordedAfter visits) ((storeAfter visits).find? key) := fun h =>
    holds_storeAfter (h.imp fun _ _ _ _ _ hpromised => .inl hpromised)
  have hfair : AtEach visits Promised → AtEach visits fun before _ window _ instant =>
      Fair window instant (recordedAfter before) ((storeAfter before).find? key) := by
    rintro h before now window limit instant after rfl
    have hbefore := holds_storeAfter (h.of_append.imp fun _ _ _ _ _ hpromised => .inl hpromised)
    exact (Store.incrementSliding_promised_iff hbefore now).1
      (h before now window limit instant after rfl)
  have hpromised : (AtEach visits fun before _ window _ instant =>
      Fair window instant (recordedAfter before) ((storeAfter before).find? key)) →
      AtEach visits Promised := by
    rintro h before now window limit instant after rfl
    have hbefore := holds_storeAfter (h.of_append.imp fun _ _ _ _ _ hfair => .inr hfair)
    exact (Store.incrementSliding_promised_iff hbefore now).2
      (h before now window limit instant after rfl)
  refine ⟨⟨hfair, hpromised⟩, hholds, fun hordered hswept => hpromised ?_⟩
  rintro before now window limit instant after rfl
  exact ⟨ordered_of_pairwise hordered window instant,
    hswept before now window limit instant after rfl⟩

/-! ## A late caller -/

open Visit in
/-- **A late caller's entry is counted after it has left.** The second of two requests brings the
earlier instant; when a third one comes, that entry has left the window of a second, but it stands
behind one that has not. So the third request is refused, with one entry in its window and a limit
of two. -/
theorem miscounted_behind_later_entry :
    let visits : List (Visit "k") := [.attempt 10000 1000 2 10000, .attempt 10000 1000 2 9500]
    ((storeAfter visits).incrementSliding 10000 "k" 1000 2 10600).1 = ⟨2, true, 400⟩ ∧
    recordedAfter visits = [10000, 9500] ∧ remaining 1000 10600 (recordedAfter visits) = [10000] ∧
    ¬ Promised visits 10000 1000 2 10600 := by
  refine ⟨by decide, by decide, by decide, ?_⟩
  intro hpromised
  have hroom := hpromised.exceeded.1 (by decide)
  revert hroom
  decide

open Visit in
/-- The same requests in the order of their instants, of which the first one has left. -/
theorem promised_in_order :
    let visits : List (Visit "k") :=
      [.attempt 10000 1000 2 9500, .attempt 10000 1000 2 10000, .attempt 10000 1000 2 10600]
    AtEach visits Promised ∧ recordedAfter visits = [10000, 10600] := by
  intro visits
  refine ⟨(promised_iff_fair "k" visits).2.2 (by decide) ?_, by decide⟩
  intro before now window limit instant after hsplit
  dsimp only [visits] at hsplit
  rcases before with _ | ⟨first, _ | ⟨second, _ | ⟨third, rest⟩⟩⟩
  · exact fun _ => nofun
  · cases hsplit
    decide
  · cases hsplit
    decide
  · have hlength := congrArg List.length hsplit
    simp at hlength

end Admission
