/-
Which paths are never limited.

A skip path is meant to cover itself and everything below it, whether or not it is written with a
slash at its end (`Http.AtOrBelow`). What is skipped never goes beyond that. It falls short of it
for a skip path with the slash, whose hierarchy would have to start with two of them; so what is
meant is what happens exactly if every skip path is also covered without its slash
(`skipped_at_or_below_iff`).
-/
import Admission.Proofs.Gate

set_option autoImplicit false

namespace Admission.Http

/-! ## What is meant -/

/-- A path without the slash at its end, if there is one. -/
def withoutSlash (path : String) : String :=
  if path.toList.getLast? = some '/' then String.ofList path.toList.dropLast else path

/-- **A path at or below a skip path:** it is the same, or it is in the hierarchy under the skip
path without a slash at its end. -/
def AtOrBelow (skipPaths : List String) (path : String) : Prop :=
  ∃ skip ∈ skipPaths, path = skip ∨ ∃ below, path = withoutSlash skip ++ "/" ++ below

/-- A path is written with a slash at its end, or it is the same without. -/
theorem withoutSlash_cases (path : String) :
    path = withoutSlash path ++ "/" ∨ withoutSlash path = path := by
  unfold withoutSlash
  split
  · rename_i hlast
    obtain ⟨front, hfront⟩ := List.getLast?_eq_some_iff.1 hlast
    refine .inl (String.toList_inj.1 ?_)
    rw [String.toList_append, String.toList_ofList, hfront, List.dropLast_concat]
    rfl
  · exact .inr rfl

/-- The characters of a path below another. -/
theorem toList_append_slash_append (top below : String) :
    (top ++ "/" ++ below).toList = top.toList ++ '/' :: below.toList := by
  rw [String.toList_append, String.toList_append, List.append_assoc]
  rfl

/-! ## How far what is skipped falls short -/

section Skipping

variable {config : RateLimitingConfig}

/-- **What is meant to be skipped** is what is skipped, and all that goes on from a skip path with
a slash at its end. -/
theorem atOrBelow_iff {path : String} : AtOrBelow config.skipPaths path ↔
    Skips config path ∨ ∃ skip ∈ config.skipPaths, skip = withoutSlash skip ++ "/" ∧
      ∃ below, path = skip ++ below := by
  constructor
  · rintro ⟨skip, hskip, rfl | ⟨below, rfl⟩⟩
    · exact .inl ⟨path, hskip, .inl rfl⟩
    · obtain hslash | hsame := withoutSlash_cases skip
      · exact .inr ⟨skip, hskip, hslash, below, by rw [← hslash]⟩
      · exact .inl ⟨skip, hskip, .inr ⟨below, by rw [hsame]⟩⟩
  · rintro (⟨skip, hskip, rfl | ⟨below, rfl⟩⟩ | ⟨skip, hskip, hslash, below, rfl⟩)
    · exact ⟨path, hskip, .inl rfl⟩
    · refine ⟨skip, hskip, .inr ?_⟩
      -- under a skip path with a slash, only what starts with another one is skipped
      obtain hslash | hsame := withoutSlash_cases skip
      · exact ⟨"/" ++ below, by rw [← String.append_assoc, ← hslash]⟩
      · exact ⟨below, by rw [hsame]⟩
    · exact ⟨skip, hskip, .inr ⟨below, by rw [← hslash]⟩⟩

/-- What is below a skipped path is skipped. -/
theorem Skips.below {path : String} (h : Skips config path) (below : String) :
    Skips config (path ++ "/" ++ below) := by
  obtain ⟨top, htop, rfl | ⟨between, rfl⟩⟩ := h
  · exact ⟨path, htop, .inr ⟨below, rfl⟩⟩
  · exact ⟨top, htop, .inr ⟨between ++ "/" ++ below, by simp only [String.append_assoc]⟩⟩

/-- A segment that is longer than every skip path is skipped only because of what it is in. -/
theorem Skips.of_long_segment {path segment : String}
    (h : Skips config (path ++ "/" ++ segment)) (hslash : '/' ∉ segment.toList)
    (hlong : ∀ top ∈ config.skipPaths, top.length < segment.length) : Skips config path := by
  obtain ⟨top, htop, hsame | ⟨below, hbelow⟩⟩ := h
  · have hlength := hlong top htop
    rw [← hsame, String.length_append] at hlength
    omega
  refine ⟨top, htop, ?_⟩
  have hlists := congrArg String.toList hbelow
  rw [toList_append_slash_append, toList_append_slash_append] at hlists
  -- the segment holds no slash, so the skip path ends at the slash before it or earlier
  obtain ⟨between, htop', hrest⟩ | ⟨between, hpath, hrest⟩ := List.append_eq_append_iff.1 hlists
  · cases between with
    | nil => exact .inl (String.toList_inj.1 (by rw [htop', List.append_nil]))
    | cons c rest =>
      obtain ⟨-, hsegment⟩ := List.cons.inj hrest
      exact absurd (hsegment ▸ List.mem_append_right rest List.mem_cons_self) hslash
  · cases between with
    | nil => exact .inl (String.toList_inj.1 (by rw [hpath, List.append_nil]))
    | cons c rest =>
      obtain ⟨rfl, -⟩ := List.cons.inj hrest
      refine .inr ⟨String.ofList rest, String.toList_inj.1 ?_⟩
      rw [hpath, toList_append_slash_append, String.toList_ofList]

/-- There is a segment that is longer than every skip path. -/
theorem exists_long_segment (skipPaths : List String) :
    ∃ segment : String, '/' ∉ segment.toList ∧ ∀ top ∈ skipPaths, top.length < segment.length := by
  refine ⟨String.ofList (List.replicate ((skipPaths.map String.length).sum + 1) 'x'), ?_, ?_⟩
  · rw [String.toList_ofList]
    exact fun h => absurd (List.eq_of_mem_replicate h) (by decide)
  · intro top htop
    have hsum : top.length ≤ (skipPaths.map String.length).sum :=
      List.le_sum_of_mem (List.mem_map_of_mem htop)
    rw [String.length_ofList, List.length_replicate]
    omega

/-- **What is skipped is at or below a skip path, and when that is all.** Take settings that could
be made. The paths at or below one of the skip paths are those that are skipped, and those that go
on from a skip path with a slash at its end. So nothing is skipped that is not meant to be; and all
that is meant to be is skipped if and only if each skip path is skipped also without a slash at its
end. -/
theorem skipped_at_or_below_iff {b : Boundary} (hb : Boundary.ofConfig config = .ok b) :
    (∀ path, AtOrBelow config.skipPaths path ↔ b.isSkipped path = true ∨
      ∃ skip ∈ config.skipPaths, skip = withoutSlash skip ++ "/" ∧
        ∃ below, path = skip ++ below) ∧
    ((∀ path, b.isSkipped path = true ↔ AtOrBelow config.skipPaths path) ↔
      ∀ skip ∈ config.skipPaths, b.isSkipped (withoutSlash skip) = true) := by
  have hskips := (Boundary.of_ofConfig hb).isSkipped_iff
  simp only [hskips]
  refine ⟨fun path => atOrBelow_iff, ?_, ?_⟩
  · intro hall skip hskip
    obtain ⟨segment, hslash, hlong⟩ := exists_long_segment config.skipPaths
    have hsegment : Skips config (withoutSlash skip ++ "/" ++ segment) :=
      (hall _).2 ⟨skip, hskip, .inr ⟨segment, rfl⟩⟩
    exact hsegment.of_long_segment hslash hlong
  · intro hall path
    refine ⟨fun hpath => atOrBelow_iff.2 (.inl hpath), ?_⟩
    rintro ⟨skip, hskip, rfl | ⟨below, rfl⟩⟩
    · exact ⟨path, hskip, .inl rfl⟩
    · exact (hall skip hskip).below below

end Skipping

/-! ## A slash too many -/

namespace SkipSample

def config (skipPaths : List String) : RateLimitingConfig :=
  { RateLimitingConfig.standard with skipPaths := skipPaths }

def boundary (skipPaths : List String) : Boundary where
  skipPaths := skipPaths
  apiKeyHeader := ⟨"x-api-key"⟩
  tenantHeader := none
  informational := true
  limit := ⟨"x-ratelimit-limit"⟩
  remaining := ⟨"x-ratelimit-remaining"⟩
  reset := ⟨"x-ratelimit-reset"⟩
  retryAfter := ⟨"retry-after"⟩

end SkipSample

open SkipSample in
/-- With the slash at its end, a path does not cover what is below it. -/
theorem not_skipped_below_slash :
    Boundary.ofConfig (config ["/metrics/"]) = .ok (boundary ["/metrics/"]) ∧
    AtOrBelow (config ["/metrics/"]).skipPaths "/metrics/prometheus" ∧
    (boundary ["/metrics/"]).isSkipped "/metrics/prometheus" = false :=
  ⟨by decide, ⟨"/metrics/", List.mem_cons_self, .inr ⟨"prometheus", by decide⟩⟩, by decide⟩

open SkipSample in
/-- Next to the same path without it, the slash does no harm. -/
theorem skipped_at_or_below_of_metrics :
    let skipPaths := ["/metrics/", "/metrics"]
    Boundary.ofConfig (config skipPaths) = .ok (boundary skipPaths) ∧
    (∀ skip ∈ skipPaths, (boundary skipPaths).isSkipped (withoutSlash skip) = true) ∧
    (boundary skipPaths).isSkipped "/metrics/prometheus" = true ∧
    ¬ AtOrBelow skipPaths "/metricsx" := by
  intro skipPaths
  have hb : Boundary.ofConfig (config skipPaths) = .ok (boundary skipPaths) := by decide
  have hslashes :
      ∀ skip ∈ skipPaths, (boundary skipPaths).isSkipped (withoutSlash skip) = true := by
    decide
  obtain ⟨-, hiff⟩ := skipped_at_or_below_iff hb
  have hall := hiff.2 hslashes
  refine ⟨hb, hslashes, ?_, ?_⟩
  · exact (hall _).2 ⟨"/metrics", by decide, .inr ⟨"prometheus", by decide⟩⟩
  · intro hbelow
    have hskipped := (hall "/metricsx").2 hbelow
    exact absurd hskipped (by decide)

end Admission.Http
