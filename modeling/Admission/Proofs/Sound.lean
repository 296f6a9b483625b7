/-
What every rule set that could be made satisfies: no limit and no window is zero,
and every id is there once (`RuleSet.Sound`). The rules that govern a request are
rules of the set, each once.
-/
import Admission.RuleSet
import Mathlib

set_option autoImplicit false

namespace Admission

/-- **What the rules in force can be relied on for.** -/
structure RuleSet.Sound (s : RuleSet) : Prop where
  limit_pos : ∀ r ∈ s.rules, 0 < r.limit
  window_pos : ∀ r ∈ s.rules, 0 < r.windowSeconds
  ids : (s.rules.map Rule.id).Nodup

/-! ## Examined rules -/

/-- What an examined rule has that no fault was found in. -/
theorem Rule.pos_of_error?_eq_none {r : Rule} (h : r.error? = none) :
    0 < r.limit ∧ 0 < r.windowSeconds ∧ r.limitPerCaller ≠ some 0 ∧ r.limitPerAddress ≠ some 0 := by
  have hf : r.fault? = none := by simpa [error?] using h
  unfold fault? at hf
  split_ifs at hf with h₁ h₂ h₃ h₄ h₅
  exact ⟨Nat.pos_of_ne_zero h₂, Nat.pos_of_ne_zero h₃, h₄, h₅⟩

/-- A rule of an expansion has the window of its source, and a limit that its
source was examined for. -/
theorem Rule.pos_of_mem_expand {r d : Rule} (h : r.error? = none) (hd : d ∈ r.expand) :
    0 < d.limit ∧ 0 < d.windowSeconds := by
  obtain ⟨hlimit, hwindow, hcaller, haddress⟩ := pos_of_error?_eq_none h
  have hpos : ∀ n : Nat, some n ≠ some 0 → 0 < n :=
    fun n hn => Nat.pos_of_ne_zero fun h0 => hn (by rw [h0])
  unfold expand at hd
  simp only [List.mem_append, List.mem_singleton, Option.mem_toList, Option.map_eq_some_iff] at hd
  rcases hd with (rfl | ⟨n, hn, rfl⟩) | ⟨n, hn, rfl⟩
  · exact ⟨hlimit, hwindow⟩
  · exact ⟨hpos n (hn ▸ hcaller), hwindow⟩
  · exact ⟨hpos n (hn ▸ haddress), hwindow⟩

namespace RuleSet

theorem nodup_of_firstRepeated_eq_none {seen : List String} {rules : List Rule}
    (h : firstRepeated seen rules = none) :
    (rules.map Rule.id).Nodup ∧ ∀ r ∈ rules, r.id ∉ seen := by
  induction rules generalizing seen with
  | nil => simp
  | cons r rest ih =>
    rw [firstRepeated] at h
    split at h
    · cases h
    · rename_i hr
      obtain ⟨hnodup, hseen⟩ := ih h
      refine ⟨?_, ?_⟩
      · rw [List.map_cons, List.nodup_cons]
        refine ⟨?_, hnodup⟩
        rw [List.mem_map]
        rintro ⟨d, hd, heq⟩
        exact hseen d hd (heq ▸ List.mem_cons_self)
      · intro d hd
        rcases List.mem_cons.1 hd with rfl | hd
        · exact hr
        · exact fun hmem => hseen d hd (List.mem_cons_of_mem _ hmem)

/-- **A rule set that could be made is sound.** -/
theorem sound_of_build {rules : List Rule} {defaults : DefaultLimits} {s : RuleSet}
    (h : build rules defaults = .ok s) : s.Sound := by
  unfold build at h
  dsimp only at h
  split at h
  · cases h
  · rename_i hall
    split at h
    · cases h
    · rename_i hids
      rw [Except.ok.injEq] at h
      subst h
      have hpos : ∀ d ∈ (rules ++ defaults.rules).flatMap Rule.expand,
          0 < d.limit ∧ 0 < d.windowSeconds := by
        intro d hd
        obtain ⟨r, hr, hd⟩ := List.mem_flatMap.1 hd
        exact Rule.pos_of_mem_expand (List.findSome?_eq_none_iff.1 hall r hr) hd
      exact ⟨fun d hd => (hpos d hd).1, fun d hd => (hpos d hd).2,
        (nodup_of_firstRepeated_eq_none hids).1⟩

namespace Sound

/-- A rule is known by its id. -/
theorem eq_of_id {s : RuleSet} (h : s.Sound) {a b : Rule} (ha : a ∈ s.rules) (hb : b ∈ s.rules)
    (hid : a.id = b.id) : a = b := List.inj_on_of_nodup_map h.ids ha hb hid

end Sound

theorem get?_eq_none_iff {set : RuleSet} {id : String} :
    set.get? id = none ↔ ∀ rule ∈ set.rules, rule.id ≠ id := by
  rw [get?, List.find?_eq_none]
  simp only [beq_iff_eq, Ne]

theorem Sound.get?_eq_some {set : RuleSet} (h : set.Sound) {rule : Rule} (hr : rule ∈ set.rules) :
    set.get? rule.id = some rule := by
  cases hfound : set.get? rule.id with
  | none => exact absurd rfl (get?_eq_none_iff.1 hfound rule hr)
  | some found =>
    have hid : found.id = rule.id := by simpa using List.find?_some hfound
    rw [h.eq_of_id (List.mem_of_find?_eq_some hfound) hr hid]

/-! ## Governing rules -/

/-- The rules with their relevance, before they are put in order. -/
theorem resolve_perm (s : RuleSet) (request : Request) :
    (s.resolve request).Perm (s.rules.filter fun r => (relevance? request r).isSome) := by
  refine ((List.mergeSort_perm _ notAfter).map Prod.snd).trans (List.Perm.of_eq ?_)
  induction s.rules with
  | nil => rfl
  | cons r rest ih =>
    rw [List.filterMap_cons, List.filter_cons]
    cases relevance? request r with
    | none => simpa using ih
    | some closeness => simpa using ih

/-- **A rule governs a request** if it is in force and relevant to it. -/
theorem mem_resolve_iff {s : RuleSet} {request : Request} {r : Rule} :
    r ∈ s.resolve request ↔ r ∈ s.rules ∧ (relevance? request r).isSome := by
  rw [(resolve_perm s request).mem_iff, List.mem_filter]

theorem mem_of_mem_resolve {s : RuleSet} {request : Request} {r : Rule}
    (h : r ∈ s.resolve request) : r ∈ s.rules := (mem_resolve_iff.1 h).1

theorem Sound.ids_resolve {s : RuleSet} (h : s.Sound) (request : Request) :
    ((s.resolve request).map Rule.id).Nodup := by
  rw [((resolve_perm s request).map Rule.id).nodup_iff]
  exact h.ids.sublist (List.filter_sublist.map Rule.id)

end RuleSet

end Admission
