/-
Numerals: how a run of digits in some base is read. A numeral is never empty and
holds nothing but digits; a sign, where one is allowed, stands in front of it.
-/

set_option autoImplicit false

namespace Admission.Text

/-- The value of a character as a digit in a base up to thirty-six. -/
def digit? (base : Nat) (c : Char) : Option Nat :=
  let value :=
    if '0' ≤ c ∧ c ≤ '9' then c.toNat - 48
    else if 'a' ≤ c ∧ c ≤ 'z' then c.toNat - 87
    else if 'A' ≤ c ∧ c ≤ 'Z' then c.toNat - 55
    else base
  if value < base then some value else none

/-- Digits read from the left after those that gave `acc`. -/
def digits? (base : Nat) (acc : Nat) : List Char → Option Nat
  | [] => some acc
  | c :: rest =>
    match digit? base c with
    | none => none
    | some d => digits? base (acc * base + d) rest

/-- **The number that a numeral writes;** `none` for anything but one digit or
more. -/
def numeral? (base : Nat) : List Char → Option Nat
  | [] => none
  | c :: rest => digits? base 0 (c :: rest)

/-- A numeral with at most one plus sign in front of it. -/
def unsigned? (base : Nat) : List Char → Option Nat
  | '+' :: rest => numeral? base rest
  | cs => numeral? base cs

/-- A numeral with at most one sign in front of it. -/
def signed? (base : Nat) : List Char → Option Int
  | '+' :: rest => (numeral? base rest).map Int.ofNat
  | '-' :: rest => (numeral? base rest).map fun n => -Int.ofNat n
  | cs => (numeral? base cs).map Int.ofNat

/-- A number of 64 bits with a sign. -/
def int64? (base : Nat) (cs : List Char) : Option Int :=
  (signed? base cs).filter fun n => -9223372036854775808 ≤ n ∧ n ≤ 9223372036854775807

/-- Whether a character is one of the ten decimal digits. -/
def isDigit (c : Char) : Bool := (digit? 10 c).isSome

end Admission.Text
