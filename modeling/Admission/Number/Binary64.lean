/-
Binary floating-point numbers of 64 bits, in exact arithmetic.

How busy a rule is gets measured as a quotient of two counts, rounded to 53
significant binary digits; two rules whose exact quotients differ by less than
that are equally busy. A number in a configuration file or in an environment
variable is rounded the same way. Both are written here over natural numbers, so
that which of two quotients is larger is a matter of computation and not of a
processor.

The main definition is `Magnitude.ofRatio`: the closest number to a fraction, an
exact tie going to the even significand.
-/

set_option autoImplicit false

namespace Admission

/-! ## Rounding -/

/-- The whole number closest to `num / den`; of two equally close ones the even
one. -/
def roundHalfEven (num den : Nat) : Nat :=
  let quotient := num / den
  let rest := num % den
  if 2 * rest < den then quotient
  else if den < 2 * rest then quotient + 1
  else if quotient % 2 = 0 then quotient else quotient + 1

/-- The whole number closest to `num / den`; of two equally close ones the larger
one. -/
def roundHalfUp (num den : Nat) : Nat := (2 * num + den) / (2 * den)

/-! ## Powers -/

/-- Two to an exponent; a negative exponent counts as zero. -/
def twoTo (exponent : Int) : Nat := Nat.pow 2 exponent.toNat

/-- Ten to an exponent; a negative exponent counts as zero. -/
def tenTo (exponent : Int) : Nat := Nat.pow 10 exponent.toNat

/-! ## Magnitudes -/

/-- **A finite nonnegative number,** `significand * 2 ^ exponent`. -/
structure Magnitude where
  significand : Nat
  exponent : Int
  deriving DecidableEq

namespace Magnitude

/-- The exponent below which no number has digits. -/
def leastExponent : Int := -1074

/-- The fraction `num / den` in units of `2 ^ exponent`, as a fraction again. -/
def scale (num den : Nat) (exponent : Int) : Nat × Nat :=
  (num * twoTo (-exponent), den * twoTo exponent)

/-- The fraction rounded in units of `2 ^ exponent`. A significand that reaches
`2 ^ 53` is written as `2 ^ 52` in units twice as large. -/
def roundAt (num den : Nat) (exponent : Int) : Magnitude :=
  let (n, d) := scale num den exponent
  let m := roundHalfEven n d
  if m = twoTo 53 then ⟨twoTo 52, exponent + 1⟩ else ⟨m, exponent⟩

/-- **The number closest to a fraction.** The unit is the one that leaves 53
binary digits before the point; it is found by comparing the lengths of numerator
and denominator, which is right or one too large. -/
def ofRatio (num den : Nat) : Magnitude :=
  if num = 0 then ⟨0, 0⟩
  else
    let guess : Int := (num.log2 : Int) - (den.log2 : Int) - 52
    let (n, d) := scale num den guess
    let unit := if n / d < twoTo 52 then guess - 1 else guess
    roundAt num den (max leastExponent unit)

/-- The number closest to a count. -/
def ofNat (n : Nat) : Magnitude := ofRatio n 1

/-- The number closest to the quotient of two numbers. -/
def divide (a b : Magnitude) : Magnitude :=
  ofRatio (a.significand * twoTo (a.exponent - b.exponent))
    (b.significand * twoTo (b.exponent - a.exponent))

/-- Comparison by value: both sides in the smaller unit. -/
def less (a b : Magnitude) : Bool :=
  a.significand * twoTo (a.exponent - b.exponent)
    < b.significand * twoTo (b.exponent - a.exponent)

/-- Whether the value is too large for a finite number. -/
def overflows (a : Magnitude) : Bool :=
  twoTo 1024 ≤ a.significand * twoTo a.exponent

/-- The closest whole number, a half going up. -/
def round (a : Magnitude) : Nat :=
  roundHalfUp (a.significand * twoTo a.exponent) (twoTo (-a.exponent))

end Magnitude

/-! ## Numbers with a sign -/

/-- **A floating-point number.** -/
inductive Binary64
  | finite (negative : Bool) (magnitude : Magnitude)
  | infinite (negative : Bool)
  | nan
  deriving DecidableEq

namespace Binary64

/-- The number closest to `digits * 10 ^ exponent`. A value far outside the range
is settled by its length, so no power of ten grows with the text. -/
def ofDecimal (negative : Bool) (digits : Nat) (exponent : Int) : Binary64 :=
  if digits = 0 then .finite negative ⟨0, 0⟩
  else
    let length : Int := (Nat.toDigits 10 digits).length
    if 310 < length + exponent then .infinite negative
    else if length + exponent < -330 then .finite negative ⟨0, 0⟩
    else
      let m := Magnitude.ofRatio (digits * tenTo exponent) (tenTo (-exponent))
      if m.overflows then .infinite negative else .finite negative m

/-- Whether the number is a zero of either sign. -/
def isZero : Binary64 → Bool
  | .finite _ m => m.significand == 0
  | _ => false

/-- The closest whole number that lies between `lo` and `hi`, a half going away
from zero; what is no number counts as zero. -/
def roundWithin (lo hi : Int) : Binary64 → Int
  | .finite negative m =>
    let n : Int := m.round
    max lo (min hi (if negative then -n else n))
  | .infinite negative => if negative then lo else hi
  | .nan => 0

end Binary64

end Admission
