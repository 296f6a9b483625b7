/-
Which characters are blank, and what is left of a text when the blank ends are
taken off. "Blank" is Unicode's property `White_Space`, so a no-break space or an
ideographic space around a rule's name or an address goes the same way as an
ordinary one.
-/

set_option autoImplicit false

namespace Admission.Text

/-! ## The property -/

/-- **Unicode's `White_Space`.** -/
def isBlank (c : Char) : Bool :=
  let n := c.toNat
  (9 ≤ n && n ≤ 13) || n == 0x20 || n == 0x85 || n == 0xA0 || n == 0x1680 ||
    (0x2000 ≤ n && n ≤ 0x200A) || n == 0x2028 || n == 0x2029 || n == 0x202F ||
    n == 0x205F || n == 0x3000

/-- The property has all of the ASCII blanks. -/
theorem isBlank_of_isWhitespace {c : Char} (h : c.isWhitespace = true) : isBlank c = true := by
  simp only [Char.isWhitespace, Bool.or_eq_true, decide_eq_true_eq] at h
  rcases h with ((rfl | rfl) | rfl) | rfl <;> decide

/-! ## Trimming -/

/-- Both ends without their blanks, over characters. -/
def trimList (cs : List Char) : List Char :=
  ((cs.dropWhile isBlank).reverse.dropWhile isBlank).reverse

/-- **A text without the blanks at its two ends.** -/
def trim (s : String) : String := String.ofList (trimList s.toList)

/-- Whether there is nothing but blanks. -/
def isAllBlank (s : String) : Bool := s.toList.all isBlank

end Admission.Text
