/-
Decimal texts of floating-point numbers: digits with or without a point, an
exponent, a sign; or the name of an infinity or of what is no number. The number
is the one closest to the value that the text writes.
-/
import Admission.Number.Binary64
import Admission.Text.Ascii
import Admission.Text.Numeral

set_option autoImplicit false

namespace Admission

/-- The exponent at the end of a text; zero if there is none. -/
def exponentSuffix? : List Char → Option Int
  | [] => some 0
  | e :: rest => if e = 'e' ∨ e = 'E' then Text.signed? 10 rest else none

/-- The digits after the point, and what follows them. -/
def fractionDigits : List Char → List Char × List Char
  | '.' :: rest => (rest.takeWhile Text.isDigit, rest.dropWhile Text.isDigit)
  | cs => ([], cs)

namespace Binary64

/-- A number without a sign. There is a digit before or after the point. -/
def unsigned? (negative : Bool) (cs : List Char) : Option Binary64 :=
  let name := Text.lower (String.ofList cs)
  if name = "inf" ∨ name = "infinity" then some (.infinite negative)
  else if name = "nan" then some .nan
  else
    let whole := cs.takeWhile Text.isDigit
    let (fraction, rest) := fractionDigits (cs.dropWhile Text.isDigit)
    match Text.numeral? 10 (whole ++ fraction), exponentSuffix? rest with
    | some digits, some exponent => some (ofDecimal negative digits (exponent - fraction.length))
    | _, _ => none

/-- **Reading a number.** -/
def parse? : List Char → Option Binary64
  | '+' :: rest => unsigned? false rest
  | '-' :: rest => unsigned? true rest
  | cs => unsigned? false cs

end Binary64

end Admission
