/-
The shortest decimal text of a floating-point number: the fewest digits that read
back as the same number, of those the closest, and of two equally close ones the
larger. Positional notation throughout, without a point where nothing follows it.

The numbers that round to `m * 2 ^ e` fill an interval around it. A grid of
decimals with `n` significant digits has a point in that interval only if one of
the two grid points next to the number is in it, so it is enough to test those
two for `n = 1, 2, …`; seventeen digits always suffice.
-/
import Admission.Number.Binary64

set_option autoImplicit false

namespace Admission

namespace Magnitude

/-- The position of the leading decimal digit: `k` with `10 ^ k ≤ value`. -/
def leadingPlace (a : Magnitude) : Int :=
  let scaled := a.significand * twoTo a.exponent * tenTo 350 / twoTo (-a.exponent)
  ((Nat.toDigits 10 scaled).length : Int) - 351

/-- One of the decimals `c * 10 ^ place` next to the number that reads back as it,
if there is one. -/
def decimalAt (a : Magnitude) (place : Int) : Option Nat :=
  -- in quarters of the last binary digit, the interval has whole ends
  let up := twoTo (a.exponent - 2) * tenTo (-place)
  let unit := twoTo (2 - a.exponent) * tenTo place
  let middle := 4 * a.significand * up
  let below := if a.significand = twoTo 52 ∧ a.exponent ≠ leastExponent then 1 else 2
  let low := (4 * a.significand - below) * up
  let high := (4 * a.significand + 2) * up
  let closed := a.significand % 2 = 0
  let inside (c : Nat) : Bool :=
    (low < c * unit || (closed && low == c * unit)) &&
      (c * unit < high || (closed && c * unit == high))
  let c := middle / unit
  match inside c, inside (c + 1) with
  | true, true =>
    -- the nearer of the two, the larger one if they are equally near
    if middle - c * unit < (c + 1) * unit - middle then some c else some (c + 1)
  | true, false => some c
  | false, true => some (c + 1)
  | false, false => none

/-- The first grid with a hit, from `count` digits on; `fuel` grids are tried. A hit
that is ten is a one with its place one further up: the number lies just below a
power of ten. -/
def shortestFrom (a : Magnitude) : (fuel : Nat) → (count : Nat) → Nat × Int
  | 0, _ => (a.significand, 0)
  | fuel + 1, count =>
    let place := a.leadingPlace - count + 1
    match a.decimalAt place with
    | some c => if c % 10 = 0 then (c / 10, place + 1) else (c, place)
    | none => shortestFrom a fuel (count + 1)

/-- **The shortest decimal,** as digits and the place of the last one. -/
def shortest (a : Magnitude) : Nat × Int :=
  if a.significand = 0 then (0, 0) else a.shortestFrom 17 1

end Magnitude

/-- Digits with the decimal point put in its place. -/
def positional (digits : List Char) (place : Int) : List Char :=
  if 0 ≤ place then digits ++ List.replicate place.toNat '0'
  else
    let after := (-place).toNat
    if after < digits.length then
      digits.take (digits.length - after) ++ '.' :: digits.drop (digits.length - after)
    else
      '0' :: '.' :: List.replicate (after - digits.length) '0' ++ digits

/-- **The text of a number.** -/
def Binary64.text : Binary64 → String
  | .finite negative m =>
    let (digits, place) := m.shortest
    String.ofList ((if negative then ['-'] else []) ++
      positional (Nat.toDigits 10 digits) place)
  | .infinite negative => if negative then "-inf" else "inf"
  | .nan => "NaN"

end Admission
