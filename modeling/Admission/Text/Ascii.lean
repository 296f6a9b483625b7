/-
Letter case of ASCII text. Methods, header names and variant names are compared
without regard to case, and only the twenty-six ASCII letters have one: every
other character stands for itself, which is what `Char.toUpper` and
`Char.toLower` do. Names of settings go by all of Unicode's letters (`fold`).
-/

set_option autoImplicit false

namespace Admission.Text

/-- **A text in ASCII capitals.** -/
def upper (s : String) : String := String.ofList (s.toList.map Char.toUpper)

/-- **A text in small ASCII letters.** -/
def lower (s : String) : String := String.ofList (s.toList.map Char.toLower)

/-- **A text in small letters, as far as those are ASCII.** Of the characters
outside ASCII one has an ASCII small letter, the Kelvin sign. -/
def fold (s : String) : String :=
  String.ofList (s.toList.map fun c => if c = '\u212a' then 'k' else c.toLower)

/-- Equality up to the case of ASCII letters. -/
def sameIgnoringCase (a b : String) : Bool := lower a == lower b

end Admission.Text
