/-
Texts that are made of fields with a separating character between them: the
segments of a path, the groups of an address, the hops of a forwarding list.
Splitting always gives at least one field, and joining the fields again gives the
text back.
-/

set_option autoImplicit false

namespace Admission.Text

/-- **The fields of a text:** what stands between the separators, empty fields
included. -/
def splitList (sep : Char) : List Char → List (List Char)
  | [] => [[]]
  | c :: rest =>
    if c = sep then [] :: splitList sep rest
    else match splitList sep rest with
      | [] => [[c]]
      | field :: fields => (c :: field) :: fields

/-- Fields put side by side with the separator between them. -/
def joinList (sep : Char) : List (List Char) → List Char
  | [] => []
  | [field] => field
  | field :: rest => field ++ sep :: joinList sep rest

theorem splitList_ne_nil (sep : Char) (cs : List Char) : splitList sep cs ≠ [] := by
  cases cs with
  | nil => simp [splitList]
  | cons c rest =>
    simp only [splitList]
    split
    · simp
    · split <;> simp

/-- Nothing is lost in splitting. -/
theorem joinList_splitList (sep : Char) (cs : List Char) :
    joinList sep (splitList sep cs) = cs := by
  induction cs with
  | nil => rfl
  | cons c rest ih =>
    by_cases h : c = sep
    · subst h
      simp only [splitList, if_true]
      cases hs : splitList c rest with
      | nil => exact absurd hs (splitList_ne_nil c rest)
      | cons field fields => simp [joinList, ← hs, ih]
    · simp only [splitList, if_neg h]
      cases hs : splitList sep rest with
      | nil => exact absurd hs (splitList_ne_nil sep rest)
      | cons field fields =>
        rw [hs] at ih
        cases fields with
        | nil => simpa [joinList] using ih
        | cons second others => simpa [joinList] using ih

/-- No field holds a separator. -/
theorem sep_notMem_of_mem_splitList {sep : Char} {cs field : List Char}
    (h : field ∈ splitList sep cs) : sep ∉ field := by
  induction cs generalizing field with
  | nil => simp_all [splitList]
  | cons c rest ih =>
    by_cases hc : c = sep
    · simp only [splitList, if_pos hc, List.mem_cons] at h
      rcases h with rfl | h
      · simp
      · exact ih h
    · simp only [splitList, if_neg hc] at h
      cases hs : splitList sep rest with
      | nil => exact absurd hs (splitList_ne_nil sep rest)
      | cons first others =>
        simp only [hs, List.mem_cons] at h
        rcases h with rfl | h
        · have : sep ∉ first := ih (by simp [hs])
          simp only [List.mem_cons, not_or]
          exact ⟨fun e => hc e.symm, this⟩
        · exact ih (by simp [hs, h])

/-- Splitting of texts. -/
def split (sep : Char) (s : String) : List String := (splitList sep s.toList).map String.ofList

/-- Joining of texts. -/
def join (sep : Char) (fields : List String) : String :=
  String.ofList (joinList sep (fields.map String.toList))

/-- The part before the first separator; all of the text if there is none. -/
def before (sep : Char) (s : String) : String :=
  String.ofList (s.toList.takeWhile (· != sep))

end Admission.Text
