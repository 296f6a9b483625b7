/-
Endpoint patterns: which request paths a rule covers.

A pattern is the lone `*`, which covers every path, or a path whose segments are
texts and wildcards. A wildcard stands for one segment; in last place it stands
for one segment or more. Paths are compared segment by segment: the query, doubled
slashes and a slash at the end make no difference.

Of two patterns that cover a path, one may be the closer description of it.
`Specificity` says how close: a pattern without wildcards first, then the one with
more literal segments, then the longer one.
-/
import Admission.Text.Blank
import Admission.Text.Fields

set_option autoImplicit false

namespace Admission

/-! ## Patterns -/

/-- One segment of a pattern. -/
inductive Segment
  | literal (text : String)
  | wildcard
  deriving DecidableEq

/-- **An endpoint pattern,** with the text it was written as. -/
structure Pattern where
  /-- the pattern's text without blank ends -/
  text : String
  /-- the segments, or `none` for the pattern that covers every path -/
  segments : Option (List Segment)
  deriving DecidableEq

/-- Why a text is no pattern. The text is quoted as it was given. -/
inductive Pattern.Fault
  | noLeadingSlash (given : String)
  | mixedWildcard (given : String)
  deriving DecidableEq

/-- The wording of a fault. -/
def Pattern.Fault.message : Pattern.Fault → String
  | noLeadingSlash given => "endpoint pattern '" ++ given ++ "' must start with '/'"
  | mixedWildcard given =>
    "endpoint pattern '" ++ given ++ "' mixes '*' with other characters in a segment"

/-- **The segments of a path:** what stands between the slashes, without the empty
pieces. -/
def pathSegments (s : String) : List String :=
  (Text.split '/' s).filter (· != "")

namespace Pattern

/-- One part of a written pattern. A star inside other characters is refused. -/
def segment? (part : String) : Option Segment :=
  if part = "*" then some .wildcard
  else if '*' ∈ part.toList then none
  else some (.literal part)

/-- **Reading a pattern.** -/
def parse (given : String) : Except Fault Pattern :=
  let text := Text.trim given
  if text = "*" then .ok ⟨text, none⟩
  else if text.toList.head? ≠ some '/' then .error (.noLeadingSlash given)
  else match (pathSegments text).mapM segment? with
    | some segments => .ok ⟨text, some segments⟩
    | none => .error (.mixedWildcard given)

/-! ## Matching -/

/-- Whether the segments of a pattern cover those of a path. -/
def covers : List Segment → List String → Bool
  | [], path => path.isEmpty
  | _ :: _, [] => false
  | [.wildcard], _ :: _ => true
  | .wildcard :: pattern, _ :: path => covers pattern path
  | .literal text :: pattern, first :: path => text == first && covers pattern path

end Pattern

/-- **How closely a pattern describes a path it covers.** -/
structure Specificity where
  exact : Bool
  literals : Nat
  segments : Nat
  deriving DecidableEq

namespace Specificity

/-- The lowest specificity: that of a pattern that covers everything. -/
def least : Specificity := ⟨false, 0, 0⟩

/-- `a.below b`: `b` is the closer description. -/
def below (a b : Specificity) : Bool :=
  (!a.exact && b.exact) ||
    (a.exact == b.exact &&
      (decide (a.literals < b.literals) ||
        (a.literals == b.literals && decide (a.segments < b.segments))))

/-- The closer of two descriptions. -/
def max (a b : Specificity) : Specificity := if a.below b then b else a

end Specificity

namespace Pattern

/-- The specificity of a list of segments. -/
def specificityOf (segments : List Segment) : Specificity :=
  let literals := segments.countP (· != .wildcard)
  ⟨literals == segments.length, literals, segments.length⟩

/-- How closely the pattern describes any path it covers. -/
def specificity (p : Pattern) : Specificity :=
  match p.segments with
  | none => Specificity.least
  | some segments => specificityOf segments

/-- **Matching a path.** The path ends at its first question mark. -/
def matchPath (p : Pattern) (path : String) : Option Specificity :=
  match p.segments with
  | none => some Specificity.least
  | some segments =>
    if covers segments (pathSegments (Text.before '?' path)) then some p.specificity
    else none

end Pattern

end Admission
