/-
Trees of settings taken generously. A variable of the environment has no type but
the one that its spelling suggests, so every scalar is turned into what its place
asks for: a number into a text, a text into a number or a flag, a flag into a
number. Names of variants are compared without regard to case.
-/
import Admission.Number.Shortest
import Admission.Reading
import Admission.Setting
import Admission.Text.Ascii
import Admission.Text.Numeral

set_option autoImplicit false

namespace Admission.Setting

/-- The words that mean yes. -/
def yesWords : List String := ["true", "on", "yes"]

/-- The words that mean no. -/
def noWords : List String := ["false", "off", "no"]

/-- A word as a flag. -/
def word? (s : String) : Option Bool :=
  if Text.lower s ∈ yesWords then some true
  else if Text.lower s ∈ noWords then some false
  else none

/-- The text of a scalar. -/
def text? : Setting → Option String
  | text s => some s
  | flag b => some (if b then "true" else "false")
  | whole n => some (toString n)
  | real x => some x.text
  | _ => none

/-- A scalar as a flag: a number is one unless it is zero. -/
def flag? : Setting → Option Bool
  | flag b => some b
  | whole n => some (n != 0)
  | real x => some !x.isZero
  | text "1" => some true
  | text "0" => some false
  | text s => word? s
  | _ => none

/-- A scalar as a number between `lo` and `hi`. A fraction is rounded, and one that
lies outside is moved to the nearer end; a whole number or a text that lies outside
is refused. -/
def number? (lo hi : Int) : Setting → Option Int
  | whole n => if lo ≤ n ∧ n ≤ hi then some n else none
  | flag b => some (if b then 1 else 0)
  | real x => some (x.roundWithin lo hi)
  | text s =>
    match word? s with
    | some b => some (if b then 1 else 0)
    | none => (Text.signed? 10 s.toList).filter fun n => lo ≤ n ∧ n ≤ hi
  | _ => none

/-- A count. A minus sign in front of a text is refused, even of zero. -/
def count? (v : Setting) : Option Nat :=
  match v with
  | text s => if s.toList.head? = some '-' then none else (number? 0 Word.max v).map Int.toNat
  | _ => (number? 0 Word.max v).map Int.toNat

/-- A whole number of 32 bits. A fraction is rounded first. -/
def int32? (v : Setting) : Option Int :=
  (number? (-9223372036854775808) 9223372036854775807 v).filter (Reading.fitsInt32 ·)

/-- The name among several that a text writes, in whatever case. -/
def nameIn? (names : List String) (s : String) : Option String :=
  names.find? fun name => Text.fold name == Text.fold s

/-- The name of a variant: a text, or the only field of a table. -/
def variant? (names : List String) : Setting → Option String
  | text s => nameIn? names s
  | table [(s, _)] => nameIn? names s
  | _ => none

/-- The fields of a record: those of a table, or the items of a list in the order
of the fields. -/
def record? (names : List String) : Setting → Option (List (String × Setting))
  | table fields => some (fields.filter fun field => field.1 ∈ names)
  | list items => some (names.zip items)
  | _ => none

/-- **Settings in layers as a notation.** -/
def reading : Reading Option Setting where
  text := text?
  flag := flag?
  count := count?
  int32 := int32?
  presence
    | nil => some none
    | v => some (some v)
  items
    | list items => some items
    | _ => none
  record := record?
  variant := variant?

end Admission.Setting
