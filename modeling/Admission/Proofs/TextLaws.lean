/-
Texts taken apart and put together again.

What is trimmed has nothing left to trim; fields that hold no separator are found again between
the separators they were joined with (`Text.splitList_joinList`); and the number that a numeral
writes is the number it was written for, in every base that has digits for it
(`Text.numeral?_toDigits`).
-/
import Admission.Text.Blank
import Admission.Text.Fields
import Admission.Text.Numeral
import Mathlib

set_option autoImplicit false

namespace Admission

namespace Text

/-! ## Trimmed texts -/

theorem dropWhile_eq_self {cs : List Char} (h : ∀ c, cs.head? = some c → isBlank c = false) :
    cs.dropWhile isBlank = cs := by
  cases cs with
  | nil => rfl
  | cons c rest => exact List.dropWhile_cons_of_neg (by simp [h c rfl])

/-- A text without blank ends is not changed by trimming. -/
theorem trim_trim (s : String) : trim (trim s) = trim s := by
  have hfront : (trimList s.toList).dropWhile isBlank = trimList s.toList := by
    apply dropWhile_eq_self
    intro c hc
    -- what is left at the front is what stood behind the blanks
    obtain ⟨rest, hrest⟩ := List.reverse_prefix.2
      (List.dropWhile_suffix isBlank (l := (s.toList.dropWhile isBlank).reverse))
    rw [List.reverse_reverse] at hrest
    have hhead : (s.toList.dropWhile isBlank).head? = some c := by
      rw [trimList] at hc
      rw [← hrest, List.head?_append, hc, Option.some_or]
    have hnot := List.head?_dropWhile_not isBlank s.toList
    rw [hhead] at hnot
    simpa using hnot
  have hback : trimList (trimList s.toList) = trimList s.toList := by
    rw [trimList, hfront]
    show ((trimList s.toList).reverse.dropWhile isBlank).reverse = _
    rw [trimList, List.reverse_reverse, List.dropWhile_idempotent]
  rw [trim, trim, String.toList_ofList, hback]

/-- A text without blanks is not changed either. -/
theorem trim_of_forall_not_isBlank {s : String} (h : ∀ c ∈ s.toList, isBlank c = false) :
    trim s = s := by
  have hfront : s.toList.dropWhile isBlank = s.toList :=
    dropWhile_eq_self fun c hc => h c (List.mem_of_head? hc)
  have hback : s.toList.reverse.dropWhile isBlank = s.toList.reverse :=
    dropWhile_eq_self fun c hc => h c (List.mem_reverse.1 (List.mem_of_head? hc))
  rw [trim, trimList, hfront, hback, List.reverse_reverse, String.ofList_toList]

/-! ## Fields -/

/-- The fields on the two sides of a separator are split apart on their own. -/
theorem splitList_append_cons (sep : Char) (front back : List Char) :
    splitList sep (front ++ sep :: back) = splitList sep front ++ splitList sep back := by
  induction front with
  | nil => simp [splitList]
  | cons c rest ih =>
    by_cases hc : c = sep
    · simp [splitList, hc, ih]
    · rw [List.cons_append, splitList, splitList, if_neg hc, if_neg hc, ih]
      cases hrest : splitList sep rest with
      | nil => exact absurd hrest (splitList_ne_nil sep rest)
      | cons field fields => rfl

theorem splitList_eq_self {sep : Char} {cs : List Char} (h : sep ∉ cs) :
    splitList sep cs = [cs] := by
  induction cs with
  | nil => rfl
  | cons c rest ih =>
    rw [List.mem_cons, not_or] at h
    rw [splitList, if_neg (Ne.symm h.1), ih h.2]

theorem mem_of_mem_splitList {sep c : Char} {cs field : List Char}
    (hfield : field ∈ splitList sep cs) (hc : c ∈ field) : c ∈ cs := by
  induction cs generalizing field with
  | nil =>
    rw [splitList, List.mem_singleton] at hfield
    rwa [hfield] at hc
  | cons first rest ih =>
    by_cases hsep : first = sep
    · rw [splitList, if_pos hsep, List.mem_cons] at hfield
      rcases hfield with rfl | hfield
      · cases hc
      · exact List.mem_cons_of_mem _ (ih hfield hc)
    · rw [splitList, if_neg hsep] at hfield
      cases hrest : splitList sep rest with
      | nil => exact absurd hrest (splitList_ne_nil sep rest)
      | cons second others =>
        simp only [hrest, List.mem_cons] at hfield
        -- the first character belongs to the first field
        rcases hfield with rfl | hfield
        · rcases List.mem_cons.1 hc with rfl | hc
          · exact List.mem_cons_self
          · exact List.mem_cons_of_mem _ (ih (by simp [hrest]) hc)
        · exact List.mem_cons_of_mem _ (ih (by simp [hrest, hfield]) hc)

/-- Joined fields start with the first character of the first field. -/
theorem exists_cons_joinList (sep c : Char) (field : List Char) (fields : List (List Char)) :
    ∃ more, joinList sep ((c :: field) :: fields) = c :: more := by
  cases fields with
  | nil => exact ⟨field, rfl⟩
  | cons second others => exact ⟨field ++ sep :: joinList sep (second :: others), rfl⟩

/-- What stands in joined fields is a separator or stands in a field. -/
theorem mem_joinList {sep c : Char} {fields : List (List Char)} (h : c ∈ joinList sep fields) :
    c = sep ∨ ∃ field ∈ fields, c ∈ field := by
  fun_induction joinList sep fields with
  | case1 => cases h
  | case2 field => exact .inr ⟨field, List.mem_singleton_self field, h⟩
  | case3 field rest _ ih =>
    rcases List.mem_append.1 h with h | h
    · exact .inr ⟨field, List.mem_cons_self, h⟩
    rcases List.mem_cons.1 h with h | h
    · exact .inl h
    obtain h | ⟨other, hother, h⟩ := ih h
    · exact .inl h
    · exact .inr ⟨other, List.mem_cons_of_mem _ hother, h⟩

/-- A character that is no separator stands in a field. -/
theorem exists_mem_splitList {sep c : Char} {cs : List Char} (h : c ∈ cs) (hsep : c ≠ sep) :
    ∃ field ∈ splitList sep cs, c ∈ field := by
  rw [← joinList_splitList sep cs] at h
  exact (mem_joinList h).resolve_left hsep

/-- **Joined fields are found again,** if none of them holds the separator. -/
theorem splitList_joinList {sep : Char} {fields : List (List Char)} (hne : fields ≠ [])
    (h : ∀ field ∈ fields, sep ∉ field) : splitList sep (joinList sep fields) = fields := by
  fun_induction joinList sep fields with
  | case1 => exact absurd rfl hne
  | case2 field => exact splitList_eq_self (h field (List.mem_singleton_self field))
  | case3 field rest hrest ih =>
    rw [List.forall_mem_cons] at h
    rw [splitList_append_cons, splitList_eq_self h.1, ih (fun hnil => hrest hnil) h.2]
    rfl

/-! ## Numerals -/

theorem digit?_ten {c : Char} (h : c.isDigit = true) : digit? 10 c = some (c.toNat - 48) := by
  simp only [Char.isDigit, Bool.and_eq_true, decide_eq_true_eq] at h
  have hlow : '0' ≤ c := h.1
  have hhigh : c ≤ '9' := h.2
  have hbound : c.toNat ≤ 57 := hhigh
  have hvalue : c.toNat - 48 < 10 := by omega
  simp only [digit?, if_pos (And.intro hlow hhigh), if_pos hvalue]

theorem isDigit_of_isDigit {c : Char} (h : c.isDigit = true) : isDigit c = true := by
  rw [isDigit, digit?_ten h]
  rfl

section Bases

variable {base : Nat}

/-- The digit for a number is read as this number. -/
theorem digit?_digitChar {d : Nat} (hbase : base ≤ 16) (hd : d < base) :
    digit? base d.digitChar = some d := by
  have hdigits : ∀ base ≤ 16, ∀ d < base, digit? base d.digitChar = some d := by decide
  exact hdigits base hbase d hd

theorem digits?_append (acc : Nat) (front back : List Char) :
    digits? base acc (front ++ back) =
      (digits? base acc front).bind fun acc => digits? base acc back := by
  induction front generalizing acc with
  | nil => rfl
  | cons c rest ih =>
    rw [List.cons_append, digits?, digits?]
    cases digit? base c with
    | none => rfl
    | some d => exact ih _

theorem digits?_toDigits (hone : 1 < base) (hbase : base ≤ 16) (n : Nat) :
    digits? base 0 (Nat.toDigits base n) = some n := by
  induction n using Nat.strong_induction_on with
  | _ n ih =>
    rw [Nat.toDigits_eq_if hone]
    split
    · rename_i hsmall
      rw [digits?, digit?_digitChar hbase hsmall]
      simp [digits?]
    · rename_i hlarge
      have hless : n / base < n := Nat.div_lt_self (by omega) hone
      have hdigit : n % base < base := Nat.mod_lt _ (by omega)
      rw [digits?_append, ih _ hless, Option.bind_some, digits?, digit?_digitChar hbase hdigit]
      simp [digits?, Nat.div_add_mod']

/-- **A numeral is read as the number that it writes.** -/
theorem numeral?_toDigits (hone : 1 < base) (hbase : base ≤ 16) (n : Nat) :
    numeral? base (Nat.toDigits base n) = some n := by
  have hread := digits?_toDigits hone hbase n
  cases hcs : Nat.toDigits base n with
  | nil => exact absurd hcs Nat.toDigits_ne_nil
  | cons c rest => rwa [hcs] at hread

/-- A numeral holds nothing but digits. -/
theorem isSome_digit?_of_numeral? {cs : List Char} {n : Nat} (h : numeral? base cs = some n) :
    ∀ c ∈ cs, (digit? base c).isSome = true := by
  have hdigits : ∀ (cs : List Char) (acc : Nat), digits? base acc cs = some n →
      ∀ c ∈ cs, (digit? base c).isSome = true := by
    intro cs
    induction cs with
    | nil => exact fun _ _ => List.forall_mem_nil _
    | cons c rest ih =>
      intro acc h
      rw [digits?] at h
      cases hd : digit? base c with
      | none =>
        rw [hd] at h
        cases h
      | some d =>
        rw [hd] at h
        exact List.forall_mem_cons.2 ⟨by rw [hd]; rfl, ih _ h⟩
  cases cs with
  | nil => exact List.forall_mem_nil _
  | cons c rest => exact hdigits _ 0 h

/-- A digit is not blank. -/
theorem isBlank_of_isSome_digit? {c : Char} (h : (digit? base c).isSome = true) :
    isBlank c = false := by
  have hrange : ('0' ≤ c ∧ c ≤ '9') ∨ ('a' ≤ c ∧ c ≤ 'z') ∨ ('A' ≤ c ∧ c ≤ 'Z') := by
    unfold digit? at h
    by_contra hnone
    rw [not_or, not_or] at hnone
    simp [hnone.1, hnone.2.1, hnone.2.2] at h
  have hnat : ∀ a b : Char, a ≤ c → c ≤ b → a.toNat ≤ c.toNat ∧ c.toNat ≤ b.toNat :=
    fun _ _ ha hb => ⟨ha, hb⟩
  simp only [isBlank, Bool.or_eq_false_iff, Bool.and_eq_false_iff, decide_eq_false_iff_not,
    beq_eq_false_iff_ne]
  rcases hrange with ⟨hlow, hhigh⟩ | ⟨hlow, hhigh⟩ | ⟨hlow, hhigh⟩
  · have hc : 48 ≤ c.toNat ∧ c.toNat ≤ 57 := hnat _ _ hlow hhigh
    omega
  · have hc : 97 ≤ c.toNat ∧ c.toNat ≤ 122 := hnat _ _ hlow hhigh
    omega
  · have hc : 65 ≤ c.toNat ∧ c.toNat ≤ 90 := hnat _ _ hlow hhigh
    omega

theorem numeral?_eq_none_of_mem {cs : List Char} {c : Char} (h : c ∈ cs)
    (hc : digit? base c = none) : numeral? base cs = none := by
  cases hread : numeral? base cs with
  | none => rfl
  | some n =>
    have hdigit := isSome_digit?_of_numeral? hread c h
    rw [hc] at hdigit
    cases hdigit

/-- A numeral is written in digits. -/
theorem isSome_digit?_of_mem_toDigits (hone : 1 < base) (hbase : base ≤ 16) {n : Nat} {c : Char}
    (h : c ∈ Nat.toDigits base n) : (digit? base c).isSome = true :=
  isSome_digit?_of_numeral? (numeral?_toDigits hone hbase n) c h

end Bases

end Text

/-- A numeral starts with a zero only if it is the zero. -/
theorem head?_toDigits_ne {n : Nat} (h : 0 < n) : (Nat.toDigits 10 n).head? ≠ some '0' := by
  induction n using Nat.strong_induction_on with
  | _ n ih =>
    rw [Nat.toDigits_eq_if (by decide)]
    split
    · rename_i hsmall
      interval_cases n <;> decide
    · rename_i hlarge
      rw [List.head?_append_of_ne_nil _ Nat.toDigits_ne_nil]
      exact ih (n / 10) (by omega) (by omega)

end Admission
