/-
An address is found again in its text.

Octets and groups are numerals between separators, so they are read back one by one. The double
colon stands where the text has its first two colons in a row (`splitDouble_joinList`), and what it
stands for is a run of zero groups (`exists_longestZeros_eq`); the number of groups on its two sides
tells how long the run is. No text of the sixth version is one of the fourth, since it holds a
colon. So reading goes back over what writing did (`IpAddress.parse?_text`).
-/
import Admission.Address.Text
import Admission.Proofs.TextLaws

set_option autoImplicit false

namespace Admission

open Text

/-! ## Numbers in a row -/

theorem below?_val {bound : Nat} (n : Fin bound) : below? bound n.val = some n := dif_pos n.isLt

theorem octet?_toDigits (o : Fin 256) : octet? (Nat.toDigits 10 o.val) = some o := by
  have hlength : (Nat.toDigits 10 o.val).length ≤ 3 :=
    (Nat.length_toDigits_le_iff (by decide) (by decide)).2 (by omega)
  have hzero : ¬ (1 < (Nat.toDigits 10 o.val).length ∧
      (Nat.toDigits 10 o.val).head? = some '0') := by
    rintro ⟨hlong, hhead⟩
    rcases Nat.eq_zero_or_pos o.val with ho | hpos
    · rw [ho] at hlong
      exact absurd hlong (by decide)
    · exact head?_toDigits_ne hpos hhead
  rw [octet?, if_neg (not_or.2 ⟨by omega, hzero⟩), numeral?_toDigits (by decide) (by decide),
    Option.bind_some, below?_val]

theorem group?_toDigits (g : Fin 65536) : group? (Nat.toDigits 16 g.val) = some g := by
  have hlength : (Nat.toDigits 16 g.val).length ≤ 4 :=
    (Nat.length_toDigits_le_iff (by decide) (by decide)).2 (by omega)
  rw [group?, if_neg (by omega), numeral?_toDigits (by decide) (by decide), Option.bind_some,
    below?_val]

/-- Numbers that are read back one by one are read back in a row. -/
theorem mapM_toDigits {base bound : Nat} {read : List Char → Option (Fin bound)}
    (h : ∀ n : Fin bound, read (Nat.toDigits base n.val) = some n) (ns : List (Fin bound)) :
    (ns.map fun n => Nat.toDigits base n.val).mapM read = some ns := by
  induction ns with
  | nil => rfl
  | cons n rest ih =>
    rw [List.map_cons, List.mapM_cons, h, ih]
    rfl

/-- What cannot be read in one place cannot be read as a whole. -/
theorem mapM_eq_none_of_mem {α β : Type} {read : α → Option β} {xs : List α} {x : α} (hx : x ∈ xs)
    (h : read x = none) : xs.mapM read = none := by
  induction xs with
  | nil => cases hx
  | cons first rest ih =>
    rw [List.mapM_cons]
    rcases List.mem_cons.1 hx with rfl | hx
    · rw [h]
      rfl
    · rw [ih hx]
      cases read first <;> rfl

/-! ## Four octets -/

theorem IPv4.toList_text (v : IPv4) :
    v.text.toList = joinList '.' ([v.a, v.b, v.c, v.d].map fun o => Nat.toDigits 10 o.val) := by
  simp [text, joinList, Nat.toList_repr]

/-- **An address of the fourth version is found again in its text.** -/
theorem IPv4.parse?_text (v : IPv4) : parse? v.text.toList = some v := by
  have hfields : ∀ field ∈ [v.a, v.b, v.c, v.d].map fun o => Nat.toDigits 10 o.val,
      '.' ∉ field := by
    intro field hfield
    obtain ⟨o, -, rfl⟩ := List.mem_map.1 hfield
    intro hpoint
    cases isSome_digit?_of_mem_toDigits (by decide) (by decide) hpoint
  rw [parse?, toList_text, splitList_joinList (by simp) hfields, mapM_toDigits octet?_toDigits]

/-- Octets are written in decimal digits, with points between them. -/
theorem IPv4.digit_of_mem_text {v : IPv4} {c : Char} (h : c ∈ v.text.toList) :
    c = '.' ∨ (digit? 10 c).isSome = true := by
  rw [toList_text] at h
  refine (mem_joinList h).imp_right ?_
  rintro ⟨field, hfield, hc⟩
  obtain ⟨o, -, rfl⟩ := List.mem_map.1 hfield
  exact isSome_digit?_of_mem_toDigits (by decide) (by decide) hc

theorem IPv4.colon_notMem_text (v : IPv4) : ':' ∉ v.text.toList := by
  intro h
  obtain h | h := digit_of_mem_text h
  · exact absurd h (by decide)
  · exact absurd h (by decide)

theorem IPv4.point_mem_text (v : IPv4) : '.' ∈ v.text.toList := by
  simp [toList_text, joinList]

/-- A text with a colon is no address of the fourth version. -/
theorem IPv4.parse?_of_colon {cs : List Char} (h : ':' ∈ cs) : parse? cs = none := by
  obtain ⟨field, hfield, hcolon⟩ := exists_mem_splitList h (show ':' ≠ '.' by decide)
  have hoctet : octet? field = none := by
    rw [octet?, numeral?_eq_none_of_mem hcolon (by decide), Option.bind_none, ite_self]
  rw [parse?, mapM_eq_none_of_mem hfield hoctet]

/-! ## Groups -/

theorem toList_groupsText (groups : List (Fin 65536)) : (groupsText groups).toList =
    joinList ':' (groups.map fun g => Nat.toDigits 16 g.val) := String.toList_ofList

/-- A field that stands for a group has no colon, and is not empty. -/
theorem field_of_mem_map_toDigits {groups : List (Fin 65536)} :
    ∀ field ∈ groups.map fun g => Nat.toDigits 16 g.val, ':' ∉ field ∧ field ≠ [] := by
  intro field hfield
  obtain ⟨g, -, rfl⟩ := List.mem_map.1 hfield
  refine ⟨?_, Nat.toDigits_ne_nil⟩
  intro hcolon
  cases isSome_digit?_of_mem_toDigits (by decide) (by decide) hcolon

/-- Groups are written in hexadecimal digits, with colons between them. -/
theorem digit_of_mem_groupsText {groups : List (Fin 65536)} {c : Char}
    (h : c ∈ (groupsText groups).toList) : c = ':' ∨ (digit? 16 c).isSome = true := by
  rw [toList_groupsText] at h
  refine (mem_joinList h).imp_right ?_
  rintro ⟨field, hfield, hc⟩
  obtain ⟨g, -, rfl⟩ := List.mem_map.1 hfield
  exact isSome_digit?_of_mem_toDigits (by decide) (by decide) hc

theorem splitList_groupsText {groups : List (Fin 65536)} (hne : groups ≠ []) :
    splitList ':' (groupsText groups).toList = groups.map fun g => Nat.toDigits 16 g.val := by
  rw [toList_groupsText]
  exact splitList_joinList (by simpa using hne) fun field hfield =>
    (field_of_mem_map_toDigits field hfield).1

/-- Groups are read as they are written, also where there are none. -/
theorem groups?_groupsText (groups : List (Fin 65536)) :
    groups? (groupsText groups).toList = some groups := by
  unfold groups?
  split
  · rename_i hempty
    -- only no group at all is written as nothing
    cases groups with
    | nil => rfl
    | cons g rest =>
      have hsplit := splitList_groupsText (List.cons_ne_nil g rest)
      rw [List.isEmpty_iff.1 hempty, splitList] at hsplit
      have hmem : [] ∈ (g :: rest).map fun g => Nat.toDigits 16 g.val := by
        rw [← hsplit]
        exact List.mem_singleton_self []
      exact absurd rfl (field_of_mem_map_toDigits [] hmem).2
  · rename_i hne
    have hgroups : groups ≠ [] := by
      rintro rfl
      exact hne rfl
    rw [splitList_groupsText hgroups, mapM_toDigits group?_toDigits]

theorem tail?_groupsText (groups : List (Fin 65536)) :
    tail? (groupsText groups).toList = some groups := by
  rw [tail?, groups?_groupsText]

/-! ## The double colon -/

/-- A character that does not start a double colon is kept in front of what is found later. -/
theorem splitDouble_cons {c : Char} {rest : List Char} (h : c = ':' → rest.head? ≠ some ':') :
    splitDouble (c :: rest) = (splitDouble rest).map fun sides => (c :: sides.1, sides.2) := by
  rw [splitDouble]
  rintro after rfl rfl
  exact h rfl rfl

theorem splitDouble_append_of_notMem {field : List Char} (h : ':' ∉ field) (rest : List Char) :
    splitDouble (field ++ rest) =
      (splitDouble rest).map fun sides => (field ++ sides.1, sides.2) := by
  induction field with
  | nil => simp
  | cons c field ih =>
    rw [List.mem_cons, not_or] at h
    rw [List.cons_append, splitDouble_cons (fun hc => absurd hc.symm h.1), ih h.2, Option.map_map]
    rfl

/-- **The double colon behind joined fields** is the first one, if no field is empty. -/
theorem splitDouble_joinList {fields : List (List Char)}
    (h : ∀ field ∈ fields, ':' ∉ field ∧ field ≠ []) (rest : List Char) :
    splitDouble (joinList ':' fields ++ rest) =
      (splitDouble rest).map fun sides => (joinList ':' fields ++ sides.1, sides.2) := by
  fun_induction joinList ':' fields with
  | case1 => simp
  | case2 field =>
    exact splitDouble_append_of_notMem (h field (List.mem_singleton_self field)).1 rest
  | case3 field others hothers ih =>
    rw [List.forall_mem_cons] at h
    -- the colon between two fields stands alone, since the second one is not empty
    have hnext : (joinList ':' others ++ rest).head? ≠ some ':' := by
      cases others with
      | nil => exact absurd rfl hothers
      | cons second others =>
        obtain ⟨hcolon, hne⟩ := h.2 second List.mem_cons_self
        cases second with
        | nil => exact absurd rfl hne
        | cons c second =>
          obtain ⟨more, hmore⟩ := exists_cons_joinList ':' c second others
          rw [hmore, List.cons_append, List.head?_cons, ne_eq, Option.some.injEq]
          exact fun hc => hcolon (hc ▸ List.mem_cons_self)
    rw [List.append_assoc, List.cons_append, splitDouble_append_of_notMem h.1.1,
      splitDouble_cons (fun _ => hnext), ih h.2, Option.map_map, Option.map_map]
    simp [Function.comp_def]

/-! ## Runs of zeros -/

/-- In front of the first other group stand zeros, as many as are counted. -/
theorem takeWhile_zero_eq (groups : List (Fin 65536)) :
    groups.takeWhile (· == 0) = List.replicate (leadingZeros groups) 0 := by
  rw [List.eq_replicate_iff]
  exact ⟨rfl, fun g hg => by simpa using List.mem_takeWhile_imp hg⟩

/-- **What a double colon stands for** is a run of zeros, and the groups before and after it are
those that are written out. -/
theorem exists_longestZeros_eq (position : Nat) (groups : List (Fin 65536)) :
    ∃ front back, groups = front ++ List.replicate (longestZeros position groups).2 0 ++ back ∧
      (longestZeros position groups).1 = position + front.length := by
  induction groups generalizing position with
  | nil => exact ⟨[], [], rfl, rfl⟩
  | cons g rest ih =>
    rw [longestZeros]
    split
    · obtain ⟨front, back, hrest, hstart⟩ := ih (position + 1)
      refine ⟨g :: front, back, ?_, ?_⟩
      · rw [List.cons_append, List.cons_append, ← hrest]
      · rw [hstart, List.length_cons]
        omega
    · refine ⟨[], (g :: rest).dropWhile (· == 0), ?_, rfl⟩
      rw [List.nil_append, ← takeWhile_zero_eq, List.takeWhile_append_dropWhile]

/-! ## Eight groups -/

theorem IPv6.ofGroups?_groups (v : IPv6) : ofGroups? v.groups = some v := dif_pos v.length_groups

/-- A mapped address is its five zeros, the ones, and the address that it holds. -/
theorem IPv6.groups_of_mapped? {v : IPv6} {inner : IPv4} (h : v.mapped? = some inner) :
    v.groups = [0, 0, 0, 0, 0, 65535] ++ inner.groups := by
  unfold mapped? at h
  split at h
  · rename_i high low hgroups
    cases h
    rw [hgroups, IPv4.groups, IPv4.ofGroups, group_octets, group_octets]
    rfl
  · cases h

/-- A mapped address is read as its last three groups. -/
theorem tail?_mapped (inner : IPv4) :
    tail? ("ffff".toList ++ ':' :: inner.text.toList) = some (65535 :: inner.groups) := by
  have hfields : splitList ':' ("ffff".toList ++ ':' :: inner.text.toList) =
      ["ffff".toList, inner.text.toList] := by
    rw [splitList_append_cons, splitList_eq_self inner.colon_notMem_text]
    rfl
  have hpoint : group? inner.text.toList = none := by
    rw [group?, numeral?_eq_none_of_mem inner.point_mem_text (by decide), Option.bind_none,
      ite_self]
  have hgroups : groups? ("ffff".toList ++ ':' :: inner.text.toList) = none := by
    rw [groups?, if_neg (by simp), hfields]
    exact mapM_eq_none_of_mem (List.mem_cons_of_mem _ (List.mem_singleton_self _)) hpoint
  have hfront : ["ffff".toList, inner.text.toList].dropLast.mapM group? = some [65535] := by
    rw [List.dropLast_cons_cons, List.dropLast_singleton]
    decide
  have hinner : IPv4.parse? (["ffff".toList, inner.text.toList].getLastD []) = some inner :=
    inner.parse?_text
  rw [tail?, hgroups]
  dsimp only
  rw [hfields, hfront, hinner]
  rfl

/-- A mapped address is read back from the fourth-version text within it. -/
theorem IPv6.parse?_mapped {v : IPv6} {inner : IPv4} (h : v.mapped? = some inner) :
    parse? ("::ffff:" ++ inner.text).toList = some v := by
  have htext : ("::ffff:" ++ inner.text).toList =
      ':' :: ':' :: ("ffff".toList ++ ':' :: inner.text.toList) := by
    rw [String.toList_append]
    rfl
  have hnone : groups? [] = some [] := rfl
  rw [htext, parse?, splitDouble]
  dsimp only
  rw [hnone, tail?_mapped]
  dsimp only
  rw [if_neg (by simp [IPv4.groups]), ← v.ofGroups?_groups, groups_of_mapped? h]
  rfl

/-- **A run of zeros is read back** from the double colon that it was shortened to. -/
theorem IPv6.parse?_doubled {v : IPv6} {front back : List (Fin 65536)} {length : Nat}
    (hgroups : v.groups = front ++ List.replicate length 0 ++ back) (hlong : 1 < length) :
    parse? (groupsText front ++ "::" ++ groupsText back).toList = some v := by
  have htext : (groupsText front ++ "::" ++ groupsText back).toList =
      (groupsText front).toList ++ ':' :: ':' :: (groupsText back).toList := by
    rw [String.toList_append, String.toList_append, List.append_assoc]
    rfl
  have hsplit : splitDouble ((groupsText front).toList ++ ':' :: ':' :: (groupsText back).toList) =
      some ((groupsText front).toList, (groupsText back).toList) := by
    rw [toList_groupsText front, splitDouble_joinList field_of_mem_map_toDigits, splitDouble,
      Option.map_some, List.append_nil]
  have htotal : front.length + length + back.length = 8 := by
    rw [← v.length_groups, hgroups, List.length_append, List.length_append, List.length_replicate]
  rw [htext, parse?, hsplit]
  dsimp only
  rw [groups?_groupsText, tail?_groupsText]
  dsimp only
  rw [if_neg (by omega), show 8 - front.length - back.length = length by omega, ← hgroups,
    ofGroups?_groups]

/-- Eight groups without a double colon are read back. -/
theorem IPv6.parse?_groupsText (v : IPv6) : parse? (groupsText v.groups).toList = some v := by
  have hsplit : splitDouble (groupsText v.groups).toList = none := by
    rw [← List.append_nil (groupsText v.groups).toList, toList_groupsText v.groups,
      splitDouble_joinList field_of_mem_map_toDigits]
    rfl
  rw [parse?, hsplit]
  dsimp only
  rw [tail?_groupsText, Option.bind_some, ofGroups?_groups]

/-- **The three ways in which an address is written.** -/
theorem IPv6.text_cases (v : IPv6) :
    (∃ inner, v.mapped? = some inner ∧ v.text = "::ffff:" ++ inner.text) ∨
    (∃ front length back, v.groups = front ++ List.replicate length 0 ++ back ∧ 1 < length ∧
      v.text = groupsText front ++ "::" ++ groupsText back) ∨
    v.text = groupsText v.groups := by
  unfold text
  split
  · rename_i inner hmapped
    exact .inl ⟨inner, hmapped, rfl⟩
  · obtain ⟨front, back, hgroups, hstart⟩ := exists_longestZeros_eq 0 v.groups
    rcases hzeros : longestZeros 0 v.groups with ⟨start, length⟩
    rw [hzeros] at hgroups hstart
    dsimp only at hgroups hstart ⊢
    rw [Nat.zero_add] at hstart
    split
    · rename_i hlong
      have htake : v.groups.take start = front := by
        rw [hgroups, hstart, List.append_assoc, List.take_left]
      have hdrop : v.groups.drop (start + length) = back := by
        rw [hgroups, hstart]
        exact List.drop_left' (by simp)
      exact .inr (.inl ⟨front, length, back, hgroups, hlong, by rw [htake, hdrop]⟩)
    · exact .inr (.inr rfl)

/-- **An address of the sixth version is found again in its text,** in whichever way it is written.
-/
theorem IPv6.parse?_text (v : IPv6) : parse? v.text.toList = some v := by
  obtain ⟨inner, hmapped, htext⟩ | ⟨front, length, back, hgroups, hlong, htext⟩ | htext :=
    v.text_cases
  · rw [htext, parse?_mapped hmapped]
  · rw [htext, parse?_doubled hgroups hlong]
  · rw [htext, parse?_groupsText]

/-- Every address of the sixth version is written with a colon. -/
theorem IPv6.colon_mem_text (v : IPv6) : ':' ∈ v.text.toList := by
  obtain ⟨inner, -, htext⟩ | ⟨front, length, back, -, -, htext⟩ | htext := v.text_cases
  · rw [htext, String.toList_append]
    exact List.mem_append_left _ (by decide)
  · rw [htext, String.toList_append, String.toList_append]
    exact List.mem_append_left _ (List.mem_append_right _ (by decide))
  · -- without a colon it would be a single group
    by_contra hnone
    have hne : v.groups ≠ [] := by
      intro hnil
      have hlength := v.length_groups
      rw [hnil] at hlength
      cases hlength
    have hsplit := splitList_groupsText hne
    rw [← htext, splitList_eq_self hnone] at hsplit
    have hlength := congrArg List.length hsplit
    rw [List.length_map, v.length_groups] at hlength
    cases hlength

/-! ## Either version -/

/-- **An address is found again in its text.** -/
theorem IpAddress.parse?_text (a : IpAddress) : parse? a.text = some a := by
  cases a with
  | v4 address => rw [text, parse?, address.parse?_text]
  | v6 address =>
    rw [text, parse?, IPv4.parse?_of_colon address.colon_mem_text, address.parse?_text]
    rfl

/-- There are no blanks in the text of an address. -/
theorem IpAddress.trim_text (a : IpAddress) : trim a.text = a.text := by
  apply trim_of_forall_not_isBlank
  intro c hc
  have hv4 : ∀ v : IPv4, c ∈ v.text.toList → isBlank c = false := by
    intro v hc
    obtain rfl | hdigit := IPv4.digit_of_mem_text hc
    · decide
    · exact isBlank_of_isSome_digit? hdigit
  have hgroups : ∀ groups, c ∈ (groupsText groups).toList → isBlank c = false := by
    intro groups hc
    obtain rfl | hdigit := digit_of_mem_groupsText hc
    · decide
    · exact isBlank_of_isSome_digit? hdigit
  cases a with
  | v4 address => exact hv4 address hc
  | v6 address =>
    rw [text] at hc
    obtain ⟨inner, -, htext⟩ | ⟨front, length, back, -, -, htext⟩ | htext := address.text_cases
    · rw [htext, String.toList_append] at hc
      rcases List.mem_append.1 hc with hc | hc
      · have hplain : ("::ffff:".toList.all fun c => !isBlank c) = true := by decide
        simpa using List.all_eq_true.1 hplain c hc
      · exact hv4 inner hc
    · rw [htext, String.toList_append, String.toList_append] at hc
      rcases List.mem_append.1 hc with hc | hc
      · rcases List.mem_append.1 hc with hc | hc
        · exact hgroups front hc
        · have hplain : ("::".toList.all fun c => !isBlank c) = true := by decide
          simpa using List.all_eq_true.1 hplain c hc
      · exact hgroups back hc
    · rw [htext] at hc
      exact hgroups _ hc

end Admission
