/-
The key space of a counter store: which keys are written alike.

A key is four or five parts with colons between them. Ids and values are escaped, so
of these parts only the key space in front can hold a colon, and a text can be taken
apart again at its last colons; that two keys with the same text are the same key is
nothing more than that. What stands third from the end is a dimension's tag in the key
of a counter and a word that is no tag in the key of an override, so the two never
meet, for whatever key spaces, ids or values.
-/
import Admission.CounterKey
import Mathlib

set_option autoImplicit false

namespace Admission

/-! ## Escaping -/

/-- An escaped character is found again together with what follows it: the three
ways to write one start differently, or go on differently after a percent sign. -/
theorem CounterKey.escapeChar_append_inj {c d : Char} {l m : List Char}
    (h : escapeChar c ++ l = escapeChar d ++ m) : c = d ∧ l = m := by
  unfold escapeChar at h
  split_ifs at h with hc hd hd' hc' hd hd' hd hd' <;>
    simp only [List.cons_append, List.nil_append, List.cons.injEq] at h
  · exact ⟨hc.trans hd.symm, h.2.2.2⟩
  · exact absurd h.2.2.1 (by decide)
  · exact absurd h.1.symm hd
  · exact absurd h.2.2.1 (by decide)
  · exact ⟨hc'.trans hd'.symm, h.2.2.2⟩
  · exact absurd h.1.symm hd
  · exact absurd h.1 hc
  · exact absurd h.1 hc
  · exact h

theorem CounterKey.flatMap_escapeChar_injective :
    Function.Injective fun s : List Char => s.flatMap escapeChar := by
  have hne : ∀ c l, escapeChar c ++ l ≠ [] := by
    intro c l
    unfold escapeChar
    split_ifs <;> simp
  intro s
  induction s with
  | nil =>
    intro t h
    cases t with
    | nil => rfl
    | cons d t => exact absurd h.symm (hne d _)
  | cons c s ih =>
    intro t h
    cases t with
    | nil => exact absurd h (hne c _)
    | cons d t =>
      simp only [List.flatMap_cons] at h
      obtain ⟨hcd, hst⟩ := escapeChar_append_inj h
      rw [hcd, ih hst]

/-- A text is found again in its escaped form. -/
theorem CounterKey.escape_injective {s t : String} (h : escape s = escape t) : s = t := by
  have hlist : s.toList.flatMap escapeChar = t.toList.flatMap escapeChar := by
    rw [escape, escape] at h
    rw [← String.toList_ofList (l := s.toList.flatMap escapeChar), h, String.toList_ofList]
  exact String.toList_inj.1 (flatMap_escapeChar_injective hlist)

/-- An escaped text holds no colon. -/
theorem CounterKey.colon_notMem_escape (s : String) : ':' ∉ (escape s).toList := by
  rw [escape, String.toList_ofList, List.mem_flatMap]
  rintro ⟨c, _, hc⟩
  unfold escapeChar at hc
  split_ifs at hc with h1 h2
  · simp at hc
  · simp at hc
  · exact h2 (List.mem_singleton.1 hc).symm

theorem Dimension.colon_notMem_tag (d : Dimension) : ':' ∉ d.tag.toList := by
  cases d <;> decide

/-- A bucket is written in digits, and `sw` has no colon either. -/
theorem CounterKey.colon_notMem_bucketText (b : Option Nat) : ':' ∉ (bucketText b).toList := by
  cases b with
  | none => decide
  | some n =>
    intro h
    have hdigit := Nat.isDigit_of_mem_toDigits (by norm_num) (by norm_num)
      (show ':' ∈ Nat.toDigits 10 n by simpa [bucketText, Nat.toList_repr] using h)
    exact absurd hdigit (by decide)

theorem CounterKey.bucketText_injective {a b : Option Nat} (h : bucketText a = bucketText b) :
    a = b := by
  have hsw : ∀ n : Nat, Nat.repr n ≠ "sw" := by
    intro n hn
    have hmem : 's' ∈ Nat.toDigits 10 n := by
      rw [← Nat.toList_repr, hn]
      decide
    exact absurd (Nat.isDigit_of_mem_toDigits (by norm_num) (by norm_num) hmem) (by decide)
  cases a with
  | none =>
    cases b with
    | none => rfl
    | some n => exact absurd h.symm (hsw n)
  | some m =>
    cases b with
    | none => exact absurd h (hsw m)
    | some n => rw [Nat.repr_injective h]

/-! ## Taking a text apart at a colon -/

/-- Two texts without the mark, each followed by it, are the same if what is
written is the same. -/
theorem append_cons_inj_of_notMem_left {α : Type} {mark : α} {l₁ l₂ r₁ r₂ : List α}
    (h₁ : mark ∉ l₁) (h₂ : mark ∉ l₂) (h : l₁ ++ mark :: r₁ = l₂ ++ mark :: r₂) :
    l₁ = l₂ ∧ r₁ = r₂ := by
  induction l₁ generalizing l₂ with
  | nil =>
    cases l₂ with
    | nil => exact ⟨rfl, (List.cons.inj h).2⟩
    | cons b l₂ =>
      rw [List.nil_append, List.cons_append, List.cons.injEq] at h
      exact absurd (h.1 ▸ List.mem_cons_self) h₂
  | cons a l₁ ih =>
    cases l₂ with
    | nil =>
      rw [List.nil_append, List.cons_append, List.cons.injEq] at h
      exact absurd (h.1 ▸ List.mem_cons_self) h₁
    | cons b l₂ =>
      rw [List.cons_append, List.cons_append, List.cons.injEq] at h
      obtain ⟨hl, hr⟩ := ih (fun hm => h₁ (List.mem_cons_of_mem a hm))
        (fun hm => h₂ (List.mem_cons_of_mem b hm)) h.2
      exact ⟨by rw [h.1, hl], hr⟩

/-- The same at the last mark: what stands behind it holds none. -/
theorem append_cons_inj_of_notMem_right {α : Type} {mark : α} {l₁ l₂ r₁ r₂ : List α}
    (h₁ : mark ∉ r₁) (h₂ : mark ∉ r₂) (h : l₁ ++ mark :: r₁ = l₂ ++ mark :: r₂) :
    l₁ = l₂ ∧ r₁ = r₂ := by
  have hreverse := congrArg List.reverse h
  rw [List.reverse_append, List.reverse_append, List.reverse_cons, List.reverse_cons,
    List.append_assoc, List.append_assoc, List.singleton_append, List.singleton_append] at hreverse
  obtain ⟨hr, hl⟩ := append_cons_inj_of_notMem_left (by rwa [List.mem_reverse])
    (by rwa [List.mem_reverse]) hreverse
  exact ⟨List.reverse_injective hl, List.reverse_injective hr⟩

/-! ## Texts of keys -/

/-- The characters of a counter's key. -/
theorem CounterKey.toList_render (space : String) (k : CounterKey) :
    (k.render space).toList = space.toList ++ ':' :: (escape k.ruleId).toList ++
      ':' :: k.dimension.tag.toList ++ ':' :: (escape k.value).toList ++
      ':' :: (bucketText k.bucket).toList := by
  simp [render, String.toList_append]

/-- The characters of an override's key. -/
theorem toList_overrideKey (space : String) (dimension : Dimension) (value : String) :
    (overrideKey space dimension value).toList = space.toList ++ ':' :: "whitelist".toList ++
      ':' :: dimension.tag.toList ++ ':' :: (CounterKey.escape value).toList := by
  simp [overrideKey, String.toList_append]

theorem CounterKey.eq_of_render_eq {space space' : String} {a b : CounterKey}
    (h : a.render space = b.render space') : space = space' ∧ a = b := by
  have hl := congrArg String.toList h
  rw [toList_render, toList_render] at hl
  -- the four parts behind the key space hold no colon, so they come off one by one
  obtain ⟨hl, hbucket⟩ := append_cons_inj_of_notMem_right
    (colon_notMem_bucketText _) (colon_notMem_bucketText _) hl
  obtain ⟨hl, hvalue⟩ := append_cons_inj_of_notMem_right
    (colon_notMem_escape _) (colon_notMem_escape _) hl
  obtain ⟨hl, htag⟩ := append_cons_inj_of_notMem_right
    (Dimension.colon_notMem_tag _) (Dimension.colon_notMem_tag _) hl
  obtain ⟨hspace, hid⟩ := append_cons_inj_of_notMem_right
    (colon_notMem_escape _) (colon_notMem_escape _) hl
  obtain ⟨id₁, dim₁, value₁, bucket₁⟩ := a
  obtain ⟨id₂, dim₂, value₂, bucket₂⟩ := b
  rw [CounterKey.mk.injEq]
  exact ⟨String.toList_inj.1 hspace, escape_injective (String.toList_inj.1 hid),
    Dimension.tag_injective (String.toList_inj.1 htag),
    escape_injective (String.toList_inj.1 hvalue),
    bucketText_injective (String.toList_inj.1 hbucket)⟩

/-- **Keys of counters are told apart by their texts,** whatever the key space
holds and whatever ids and values do. -/
theorem CounterKey.render_injective {space : String} {a b : CounterKey}
    (h : a.render space = b.render space) : a = b := (eq_of_render_eq h).2

/-- Overrides are told apart in the same way. -/
theorem eq_of_overrideKey_eq {space space' : String} {dimension dimension' : Dimension}
    {value value' : String} (h : overrideKey space dimension value =
      overrideKey space' dimension' value') :
    space = space' ∧ dimension = dimension' ∧ value = value' := by
  have hl := congrArg String.toList h
  rw [toList_overrideKey, toList_overrideKey] at hl
  obtain ⟨hl, hvalue⟩ := append_cons_inj_of_notMem_right
    (CounterKey.colon_notMem_escape _) (CounterKey.colon_notMem_escape _) hl
  obtain ⟨hl, htag⟩ := append_cons_inj_of_notMem_right
    (Dimension.colon_notMem_tag _) (Dimension.colon_notMem_tag _) hl
  have hspace := List.append_cancel_right hl
  exact ⟨String.toList_inj.1 hspace, Dimension.tag_injective (String.toList_inj.1 htag),
    CounterKey.escape_injective (String.toList_inj.1 hvalue)⟩

theorem Dimension.tag_ne_whitelist (d : Dimension) : d.tag.toList ≠ "whitelist".toList := by
  cases d <;> decide

/-- **No counter lies under the key of an override,** not even one in another key
space: third from the end the one has a tag and the other a word that is none. -/
theorem CounterKey.render_ne_overrideKey (space space' : String) (k : CounterKey)
    (dimension : Dimension) (value : String) :
    k.render space ≠ overrideKey space' dimension value := by
  intro h
  have hl := congrArg String.toList h
  rw [toList_render, toList_overrideKey] at hl
  obtain ⟨hl, -⟩ := append_cons_inj_of_notMem_right
    (colon_notMem_bucketText _) (colon_notMem_escape _) hl
  obtain ⟨hl, -⟩ := append_cons_inj_of_notMem_right
    (colon_notMem_escape _) (Dimension.colon_notMem_tag _) hl
  obtain ⟨-, htag⟩ := append_cons_inj_of_notMem_right
    (Dimension.colon_notMem_tag _) (by decide) hl
  exact Dimension.tag_ne_whitelist _ htag

/-- **The text of a key tells the key.** Two keys of counters are written alike if and
only if they agree in key space, id, dimension, value and bucket; two keys of overrides
if and only if they agree in key space, dimension and value; and no key of a counter is
ever written like the key of an override. The key spaces may hold colons, and ids and
values may hold anything, a rule may well be called `whitelist`. -/
theorem key_text_tells_key :
    (∀ (space space' id id' : String) (dimension dimension' : Dimension) (value value' : String)
      (bucket bucket' : Option Nat),
      (CounterKey.mk id dimension value bucket).render space =
          (CounterKey.mk id' dimension' value' bucket').render space' ↔
        space = space' ∧ id = id' ∧ dimension = dimension' ∧ value = value' ∧
          bucket = bucket') ∧
    (∀ (space space' : String) (dimension dimension' : Dimension) (value value' : String),
      overrideKey space dimension value = overrideKey space' dimension' value' ↔
        space = space' ∧ dimension = dimension' ∧ value = value') ∧
    ∀ (space space' : String) (k : CounterKey) (dimension : Dimension) (value : String),
      k.render space ≠ overrideKey space' dimension value := by
  refine ⟨?_, ?_, CounterKey.render_ne_overrideKey⟩
  · intro space space' id id' dimension dimension' value value' bucket bucket'
    constructor
    · intro h
      obtain ⟨hspace, hkey⟩ := CounterKey.eq_of_render_eq h
      rw [CounterKey.mk.injEq] at hkey
      exact ⟨hspace, hkey⟩
    · rintro ⟨rfl, rfl, rfl, rfl, rfl⟩
      rfl
  · intro space space' dimension dimension' value value'
    constructor
    · exact eq_of_overrideKey_eq
    · rintro ⟨rfl, rfl, rfl⟩
      rfl

/-- A rule that is called like the word in the keys of overrides, and a value that goes
on like such a key. -/
example : (CounterKey.mk "whitelist" .address "ip:10.0.0.1" none).render "t" =
      "t:whitelist:ip:ip%3A10.0.0.1:sw" ∧
    overrideKey "t" .address "ip:10.0.0.1" = "t:whitelist:ip:ip%3A10.0.0.1" := by
  decide +kernel

end Admission
