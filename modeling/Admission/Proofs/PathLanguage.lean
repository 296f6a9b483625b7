/-
Which texts are patterns, and which paths a pattern describes.

A pattern is read part by part (`Pattern.parse_eq_ok_iff`) and compared with a path position
by position. `Pattern.Describes` is what the comparison comes to: so many positions, and at
those of the literal segments the same text. Both are put together in terms of the written
parts alone (`pattern_language`), where no segment of a pattern is left.
-/
import Admission.Proofs.Export

set_option autoImplicit false

namespace Admission

/-! ## The segments of a path -/

namespace Text

/-- A text behind another one is cut off with it, or cut on its own. -/
theorem before_append (sep : Char) (front back : String) :
    before sep (front ++ back) =
      if sep ∈ front.toList then before sep front else front ++ before sep back := by
  have hcs : ∀ cs ds : List Char, (cs ++ ds).takeWhile (· != sep) =
      if sep ∈ cs then cs.takeWhile (· != sep) else cs ++ ds.takeWhile (· != sep) := by
    intro cs ds
    induction cs with
    | nil => simp
    | cons c rest ih =>
      by_cases hc : c = sep
      · simp [hc]
      · by_cases hrest : sep ∈ rest <;> simp [ih, hc, Ne.symm hc, hrest]
  unfold before
  rw [String.toList_append, hcs, ← String.toList_inj]
  split <;> simp

theorem before_eq_self {sep : Char} {s : String} (h : sep ∉ s.toList) : before sep s = s := by
  have happend := before_append sep s ""
  rw [if_neg h, String.append_empty] at happend
  rw [happend, ← String.toList_inj]
  simp [before]

end Text

theorem pathSegments_append_slash (front back : String) :
    pathSegments (front ++ "/" ++ back) = pathSegments front ++ pathSegments back := by
  have htext : (front ++ "/" ++ back).toList = front.toList ++ '/' :: back.toList := by simp
  rw [pathSegments, Text.split, htext, Text.splitList_append_cons, List.map_append,
    List.filter_append]
  rfl

/-- **The segments of a request's path,** which ends at the first question mark. -/
def requestSegments (path : String) : List String := pathSegments (Text.before '?' path)

theorem requestSegments_append_slash (front back : String) :
    requestSegments (front ++ "/" ++ back) =
      requestSegments front ++ if '?' ∈ front.toList then [] else requestSegments back := by
  rw [requestSegments, String.append_assoc, Text.before_append, requestSegments]
  by_cases hquery : '?' ∈ front.toList
  · rw [if_pos hquery, if_pos hquery, List.append_nil]
  · have hslash : Text.before '?' ("/" ++ back) = "/" ++ Text.before '?' back := by
      rw [Text.before_append, if_neg (by decide)]
    rw [if_neg hquery, if_neg hquery, hslash, Text.before_eq_self hquery, ← String.append_assoc,
      pathSegments_append_slash, requestSegments]

/-- Doubled slashes make no difference, -/
theorem requestSegments_doubled_slash (front back : String) :
    requestSegments (front ++ "//" ++ back) = requestSegments (front ++ "/" ++ back) := by
  have htext : front ++ "//" ++ back = front ++ "/" ++ ("" ++ "/" ++ back) := by
    rw [← String.toList_inj]
    simp
  have hnone : requestSegments "" = [] := by decide
  rw [htext, requestSegments_append_slash, requestSegments_append_slash "" back, hnone,
    requestSegments_append_slash, if_neg (show '?' ∉ "".toList by simp), List.nil_append]

/-- nor a slash at the end, -/
theorem requestSegments_trailing_slash (path : String) :
    requestSegments (path ++ "/") = requestSegments path := by
  have hsegments := requestSegments_append_slash path ""
  rw [String.append_empty] at hsegments
  rw [hsegments, show requestSegments "" = [] by decide, ite_self, List.append_nil]

/-- nor the query. -/
theorem requestSegments_query (path query : String) :
    requestSegments (path ++ "?" ++ query) = requestSegments path := by
  have hquery : Text.before '?' ("?" ++ query) = "" := by
    rw [Text.before_append, if_pos (by decide)]
    decide
  rw [requestSegments, requestSegments, String.append_assoc, Text.before_append, hquery]
  split
  · rfl
  · rename_i hnone
    rw [String.append_empty, Text.before_eq_self hnone]

/-! ## Reading a pattern -/

/-- The segment that a part stands for. -/
def Segment.ofPart (part : String) : Segment := if part = "*" then .wildcard else .literal part

namespace Pattern

/-- **A part of a pattern** is a star, or has none. -/
def IsPart (part : String) : Prop := part = "*" ∨ '*' ∉ part.toList

theorem segment?_eq_some_iff {part : String} {segment : Segment} :
    segment? part = some segment ↔ IsPart part ∧ segment = .ofPart part := by
  unfold segment? IsPart Segment.ofPart
  by_cases hstar : part = "*"
  · simp [hstar, eq_comm]
  · by_cases hmixed : '*' ∈ part.toList <;> simp [hstar, hmixed, eq_comm]

theorem mapM_segment?_eq_some_iff {parts : List String} {segments : List Segment} :
    parts.mapM segment? = some segments ↔
      (∀ part ∈ parts, IsPart part) ∧ segments = parts.map Segment.ofPart := by
  induction parts generalizing segments with
  | nil => simp [eq_comm]
  | cons part rest ih =>
    simp only [List.mapM_cons, Option.bind_eq_bind, Option.bind_eq_some_iff, Option.pure_def,
      Option.some.injEq, segment?_eq_some_iff, ih, List.forall_mem_cons, List.map_cons]
    constructor
    · rintro ⟨_, ⟨hpart, rfl⟩, _, ⟨hrest, rfl⟩, rfl⟩
      exact ⟨⟨hpart, hrest⟩, rfl⟩
    · rintro ⟨⟨hpart, hrest⟩, rfl⟩
      exact ⟨_, ⟨hpart, rfl⟩, _, ⟨hrest, rfl⟩, rfl⟩

/-- **What reading a pattern gives:** the lone star, or the segments of a path with stars. -/
theorem parse_eq_ok_iff {given : String} {p : Pattern} :
    parse given = .ok p ↔
      Text.trim given = "*" ∧ p = ⟨Text.trim given, none⟩ ∨
        Text.trim given ≠ "*" ∧ (Text.trim given).toList.head? = some '/' ∧
          (∀ part ∈ pathSegments (Text.trim given), IsPart part) ∧
            p = ⟨Text.trim given, some ((pathSegments (Text.trim given)).map Segment.ofPart)⟩ := by
  unfold parse
  dsimp only
  generalize Text.trim given = text
  by_cases hstar : text = "*"
  · simp [hstar, eq_comm]
  · by_cases hslash : text.toList.head? = some '/'
    · cases hsegments : (pathSegments text).mapM segment? with
      | some segments =>
        obtain ⟨hparts, rfl⟩ := mapM_segment?_eq_some_iff.1 hsegments
        simp only [hstar, hslash, if_false, ne_eq, not_true_eq_false, false_and, false_or,
          Except.ok.injEq, not_false_eq_true, true_and]
        exact ⟨fun h => ⟨hparts, h.symm⟩, fun h => h.2.symm⟩
      | none =>
        have hparts : ¬ ∀ part ∈ pathSegments text, IsPart part := by
          intro hparts
          rw [mapM_segment?_eq_some_iff.2 ⟨hparts, rfl⟩] at hsegments
          cases hsegments
        simp [hstar, hslash, hparts]
    · simp [hstar, hslash]

/-! ## Comparing with a path -/

/-- **Segments describe a path,** position by position: there are as many of them, or with a
wildcard in last place no more, and where one is a literal the path has its text. -/
structure Describes (segments : List Segment) (path : List String) : Prop where
  length_le : segments.length ≤ path.length
  length_eq : segments.getLast? ≠ some .wildcard → segments.length = path.length
  literal : ∀ (i : Nat) text, segments[i]? = some (.literal text) → path[i]? = some text

theorem describes_nil_iff {path : List String} : Describes [] path ↔ path = [] := by
  constructor
  · intro h
    have hlength := h.length_eq nofun
    exact List.length_eq_zero_iff.1 hlength.symm
  · rintro rfl
    exact ⟨le_rfl, fun _ => rfl, nofun⟩

theorem describes_wildcard {first : String} {path : List String} :
    Describes [.wildcard] (first :: path) := by
  refine ⟨Nat.succ_le_succ (Nat.zero_le _), fun h => absurd rfl h, ?_⟩
  intro i text hi
  cases i <;> simp at hi

/-- The first position is compared on its own, unless a wildcard there is also the last. -/
theorem describes_cons_iff {segment : Segment} {segments : List Segment} {first : String}
    {path : List String} (h : segments = [] → segment ≠ .wildcard) :
    Describes (segment :: segments) (first :: path) ↔
      (∀ text, segment = .literal text → first = text) ∧ Describes segments path := by
  have hlast : (segment :: segments).getLast? = some .wildcard ↔
      segments.getLast? = some .wildcard := by
    cases segments with
    | nil => simpa using h rfl
    | cons second rest => rw [List.getLast?_cons_cons]
  constructor
  · rintro ⟨hle, heq, hliteral⟩
    refine ⟨?_, ⟨Nat.le_of_succ_le_succ hle, ?_, fun i text hi => hliteral (i + 1) text hi⟩⟩
    · rintro text rfl
      simpa using hliteral 0 text rfl
    · intro hclosed
      exact Nat.succ.inj (heq (mt hlast.1 hclosed))
  · rintro ⟨hfirst, hle, heq, hliteral⟩
    refine ⟨Nat.succ_le_succ hle, fun hclosed => congrArg Nat.succ (heq (mt hlast.2 hclosed)), ?_⟩
    intro i text hi
    cases i with
    | zero => simpa using hfirst text (by simpa using hi)
    | succ i => exact hliteral i text hi

/-- **The comparison is position by position.** -/
theorem covers_eq_true_iff {segments : List Segment} {path : List String} :
    covers segments path = true ↔ Describes segments path := by
  fun_induction covers segments path with
  | case1 path => rw [describes_nil_iff, List.isEmpty_iff]
  | case2 segment segments =>
    refine iff_of_false Bool.false_ne_true ?_
    intro h
    cases h.length_le
  | case3 first path => exact iff_of_true rfl describes_wildcard
  | case4 segments first path hne ih =>
    rw [ih, describes_cons_iff (fun hnil => absurd hnil hne)]
    simp
  | case5 text segments first path ih =>
    rw [Bool.and_eq_true, beq_iff_eq, ih, describes_cons_iff (fun _ => Segment.noConfusion)]
    simp [eq_comm]

theorem isSome_matchPath_iff {p : Pattern} {path : String} :
    (p.matchPath path).isSome = true ↔
      ∀ segments, p.segments = some segments → Describes segments (requestSegments path) := by
  unfold matchPath
  cases p.segments with
  | none => simp
  | some segments =>
    simp only [Option.some.injEq, forall_eq', ← covers_eq_true_iff, requestSegments]
    split <;> simp_all

/-- What a pattern makes of a path depends on the segments before the query. -/
theorem matchPath_congr (p : Pattern) {a b : String} (h : requestSegments a = requestSegments b) :
    p.matchPath a = p.matchPath b := by
  unfold requestSegments at h
  unfold matchPath
  rw [h]

/-! ## Comparing in writing -/

theorem ofPart_eq_wildcard_iff {part : String} :
    Segment.ofPart part = .wildcard ↔ part = "*" := by
  unfold Segment.ofPart
  split <;> simp_all

theorem ofPart_eq_literal_iff {part text : String} :
    Segment.ofPart part = .literal text ↔ part = text ∧ text ≠ "*" := by
  unfold Segment.ofPart
  split
  · rename_i hstar
    simp only [reduceCtorEq, false_iff, not_and, not_not]
    exact fun h => h.symm.trans hstar
  · rename_i hstar
    rw [Segment.literal.injEq]
    exact ⟨fun h => ⟨h, h ▸ hstar⟩, fun h => h.1⟩

variable {parts path : List String}

/-- A pattern ends with a wildcard if a star is written in last place. -/
theorem getLast?_map_ofPart_eq_iff :
    (parts.map Segment.ofPart).getLast? = some .wildcard ↔ parts.getLast? = some "*" := by
  rw [List.getLast?_map, Option.map_eq_some_iff]
  simp only [ofPart_eq_wildcard_iff, exists_eq_right]

/-- Literal segments are compared with the path, and parts that are no stars are literal. -/
theorem literal_map_ofPart_iff :
    (∀ (i : Nat) text, (parts.map Segment.ofPart)[i]? = some (.literal text) →
        path[i]? = some text) ↔
      ∀ i < parts.length, parts[i]? = some "*" ∨ parts[i]? = path[i]? := by
  simp only [List.getElem?_map, Option.map_eq_some_iff, ofPart_eq_literal_iff]
  constructor
  · intro h i hi
    rw [List.getElem?_eq_getElem hi]
    by_cases hstar : parts[i] = "*"
    · exact .inl (congrArg some hstar)
    · exact .inr (h i parts[i] ⟨parts[i], List.getElem?_eq_getElem hi, rfl, hstar⟩).symm
  · rintro h i text ⟨part, hpart, rfl, hstar⟩
    obtain ⟨hi, -⟩ := List.getElem?_eq_some_iff.1 hpart
    rcases h i hi with hwild | hsame
    · rw [hpart, Option.some.injEq] at hwild
      exact absurd hwild hstar
    · rw [← hsame, hpart]

/-- **How a written pattern is compared with a path:** with a star in last place position by
position before it, and if there is none position by position to the end. -/
theorem describes_map_ofPart_iff :
    Describes (parts.map Segment.ofPart) path ↔
      (parts.getLast? = some "*" ∧ parts.length ≤ path.length ∧
        ∀ i, i + 1 < parts.length → parts[i]? = some "*" ∨ parts[i]? = path[i]?) ∨
      (parts.getLast? ≠ some "*" ∧ parts.length = path.length ∧
        ∀ i, i < parts.length → parts[i]? = some "*" ∨ parts[i]? = path[i]?) := by
  by_cases hlast : parts.getLast? = some "*"
  · simp only [hlast, true_and, ne_eq, not_true_eq_false, false_and, or_false]
    constructor
    · rintro ⟨hle, -, hliteral⟩
      rw [List.length_map] at hle
      exact ⟨hle, fun i hi => literal_map_ofPart_iff.1 hliteral i (by omega)⟩
    · rintro ⟨hle, hparts⟩
      refine ⟨by rwa [List.length_map], fun h => absurd (getLast?_map_ofPart_eq_iff.2 hlast) h,
        literal_map_ofPart_iff.2 ?_⟩
      intro i hi
      by_cases hbefore : i + 1 < parts.length
      · exact hparts i hbefore
      -- in last place is the star
      · rw [List.getLast?_eq_getElem?, show parts.length - 1 = i by omega] at hlast
        exact .inl hlast
  · simp only [hlast, false_and, false_or, ne_eq, not_false_eq_true, true_and]
    constructor
    · rintro ⟨-, heq, hliteral⟩
      have hlength := heq (mt getLast?_map_ofPart_eq_iff.1 hlast)
      rw [List.length_map] at hlength
      exact ⟨hlength, literal_map_ofPart_iff.1 hliteral⟩
    · rintro ⟨hlength, hparts⟩
      exact ⟨by rw [List.length_map, hlength], fun _ => by rw [List.length_map, hlength],
        literal_map_ofPart_iff.2 hparts⟩

end Pattern

/-! ## The law -/

/-- **The language of patterns, and the language of each.** Take any text, and cut off its
blank ends.

The text is a pattern if and only if it is the lone star, or begins with a slash and each of
its parts between slashes is a star or holds none.

A pattern matches a path if and only if the pattern is the lone star; or its last part is a
star, the path has at least as many segments as the pattern, and each part before the last is
a star or is the segment at its position; or its last part is no star, there are as many parts
as segments, and each part is a star or is the segment at its position. The segments of a path
are what stands between the slashes before its first question mark, without the empty pieces.

So doubled slashes, a slash at the end and the query change nothing, neither whether the path
is matched nor how closely. And a pattern that is read again from its own text is the same. -/
theorem pattern_language (given : String) :
    let text := Text.trim given
    let parts := pathSegments text
    ((∃ p, Pattern.parse given = .ok p) ↔
      text = "*" ∨ text.toList.head? = some '/' ∧
        ∀ part ∈ Text.split '/' text, part = "*" ∨ '*' ∉ part.toList) ∧
    ∀ p, Pattern.parse given = .ok p →
      (∀ path,
        let segments := pathSegments (Text.before '?' path)
        (p.matchPath path).isSome = true ↔
          text = "*" ∨
          (parts.getLast? = some "*" ∧ parts.length ≤ segments.length ∧
            ∀ i, i + 1 < parts.length → parts[i]? = some "*" ∨ parts[i]? = segments[i]?) ∨
          (parts.getLast? ≠ some "*" ∧ parts.length = segments.length ∧
            ∀ i, i < parts.length → parts[i]? = some "*" ∨ parts[i]? = segments[i]?)) ∧
      (∀ front back query,
        p.matchPath (front ++ "//" ++ back) = p.matchPath (front ++ "/" ++ back) ∧
        p.matchPath (front ++ "/") = p.matchPath front ∧
        p.matchPath (front ++ "?" ++ query) = p.matchPath front) ∧
      p.text = text ∧ Pattern.parse p.text = .ok p := by
  intro text parts
  refine ⟨?_, ?_⟩
  · -- an empty piece between slashes holds no star
    have hparts : (∀ part ∈ Text.split '/' text, part = "*" ∨ '*' ∉ part.toList) ↔
        ∀ part ∈ parts, Pattern.IsPart part := by
      simp only [parts, pathSegments, List.mem_filter, bne_iff_ne, Pattern.IsPart]
      constructor
      · exact fun h part hpart => h part hpart.1
      · intro h part hpart
        by_cases hempty : part = ""
        · exact .inr (by simp [hempty])
        · exact h part ⟨hpart, hempty⟩
    rw [hparts]
    constructor
    · rintro ⟨p, hp⟩
      rcases Pattern.parse_eq_ok_iff.1 hp with ⟨hstar, -⟩ | ⟨-, hslash, hall, -⟩
      · exact .inl hstar
      · exact .inr ⟨hslash, hall⟩
    · intro h
      by_cases hstar : text = "*"
      · exact ⟨_, Pattern.parse_eq_ok_iff.2 (.inl ⟨hstar, rfl⟩)⟩
      · obtain ⟨hslash, hall⟩ := h.resolve_left hstar
        exact ⟨_, Pattern.parse_eq_ok_iff.2 (.inr ⟨hstar, hslash, hall, rfl⟩)⟩
  · intro p hp
    refine ⟨?_, ?_, Pattern.text_of_parse hp, Pattern.parse_text hp⟩
    · intro path segments
      rw [Pattern.isSome_matchPath_iff]
      rcases Pattern.parse_eq_ok_iff.1 hp with ⟨hstar, rfl⟩ | ⟨hstar, -, -, rfl⟩
      · exact iff_of_true (fun _ h => absurd h (Option.some_ne_none _).symm) (.inl hstar)
      · rw [or_iff_right (show text ≠ "*" from hstar), ← Pattern.describes_map_ofPart_iff]
        exact ⟨fun h => h _ rfl, fun h _ hsegments => Option.some.inj hsegments ▸ h⟩
    · intro front back query
      exact ⟨p.matchPath_congr (requestSegments_doubled_slash front back),
        p.matchPath_congr (requestSegments_trailing_slash front),
        p.matchPath_congr (requestSegments_query front query)⟩

/-! ## A pattern with blank ends -/

namespace PathLanguageSample

def items : Pattern :=
  ⟨"/shops/*/items/*", some [.literal "shops", .wildcard, .literal "items", .wildcard]⟩

end PathLanguageSample

open PathLanguageSample in
/-- The inner wildcard stands for one segment and the last one for several; without any
segment in its place the path is not matched. -/
theorem pattern_language_of_items :
    Pattern.parse " /shops/*/items/*\t" = .ok items ∧
      Pattern.parse items.text = .ok items ∧
      (items.matchPath "/shops//a/items/7/parts/?page=/2").isSome = true ∧
      (items.matchPath "/shops/a/items/").isSome = false := by
  have hparse : Pattern.parse " /shops/*/items/*\t" = .ok items := by decide +kernel
  obtain ⟨-, hpattern⟩ := pattern_language " /shops/*/items/*\t"
  obtain ⟨hmatches, -, -, hreparse⟩ := hpattern items hparse
  refine ⟨hparse, hreparse, ?_, ?_⟩
  · refine (hmatches _).2 (.inr (.inl ⟨by decide +kernel, by decide +kernel, ?_⟩))
    intro i hi
    have hthree : i < 3 := Nat.lt_of_succ_lt_succ hi
    interval_cases i <;> decide +kernel
  · rw [Bool.eq_false_iff]
    intro hmatched
    rcases (hmatches _).1 hmatched with hstar | ⟨-, hlength, -⟩ | ⟨hlast, -⟩
    · exact absurd hstar (by decide +kernel)
    · exact absurd hlength (by decide +kernel)
    · exact absurd hlast (by decide +kernel)

end Admission
