/-
A place in a YAML text of version 1.2. Only line feeds and returns end a line there,
and any character may stand in a text but NUL, which ends it. A cursor also knows
whether its line has been blank so far, since a tab may be blank or not depending on
that.
-/
import Admission.Yaml.Scalar

set_option autoImplicit false

namespace Admission.Yaml12

open Yaml (isSpacing isNameChar flowIndicators)

/-! ## Characters -/

/-- A character that ends a line. -/
def isBreak (c : Char) : Bool := c == '\n' || c == '\r'

/-- Whether a text begins with spacing or a line break, or is at its end. -/
def startsBlank : List Char → Bool
  | [] => true
  | c :: _ => isSpacing c || isBreak c

/-- Whether a text begins with a line break or is at its end. -/
def startsBreak : List Char → Bool
  | [] => true
  | c :: _ => isBreak c

/-- A character that has a meaning of its own inside flow brackets. -/
def isFlow (c : Char) : Bool := c ∈ flowIndicators

/-- Whether a text begins with such a character. -/
def startsFlow (cs : List Char) : Bool := cs.head?.any isFlow

/-- A character of the name of an anchor. -/
def isAnchorChar (c : Char) : Bool :=
  !isSpacing c && !isBreak c && !isFlow c && c != '\ufeff'

/-! ## Cursors -/

/-- **A place in a text.** -/
structure Cursor where
  rest : List Char
  index : Nat
  line : Nat
  column : Nat
  /-- whether there has been nothing but spacing on the line so far -/
  leading : Bool
  deriving DecidableEq

namespace Cursor

/-- The beginning of a text. -/
def start (cs : List Char) : Cursor := ⟨cs, 0, 0, 0, true⟩

/-- The place `n` characters further on the same line, over spacing. -/
def pass (c : Cursor) (n : Nat) : Cursor :=
  { c with rest := c.rest.drop n, index := c.index + n, column := c.column + n }

/-- The place `n` characters further on the same line. -/
def advance (c : Cursor) (n : Nat) : Cursor :=
  { c.pass n with leading := c.leading && n == 0 }

/-- The place after all characters that have a property, none of them a break. -/
def skipWhile (c : Cursor) (p : Char → Bool) : Cursor := c.advance (c.rest.takeWhile p).length

/-- The spacing here. -/
def spacing (c : Cursor) : List Char := c.rest.takeWhile isSpacing

/-- The place after the spacing here. -/
def skipSpacing (c : Cursor) : Cursor := c.pass c.spacing.length

/-- The beginning of the next line, if a line ends here. A return with a line feed
is one break. -/
def nextLine? (c : Cursor) : Option Cursor :=
  let next (n : Nat) : Option Cursor :=
    some { rest := c.rest.drop n, index := c.index + n, line := c.line + 1, column := 0, leading := true }
  match c.rest with
  | '\r' :: '\n' :: _ => next 2
  | '\r' :: _ | '\n' :: _ => next 1
  | _ => none

/-- The beginning of the next line; the same place if no line ends here. -/
def skipBreak (c : Cursor) : Cursor := c.nextLine?.getD c

/-- Whether a character stands here. -/
def at_ (c : Cursor) (char : Char) : Bool := c.rest.head? == some char

/-- Whether the mark of a document's beginning or end stands here. -/
def atMark (c : Cursor) (mark : Char) : Bool :=
  c.column == 0 && c.rest.take 3 == [mark, mark, mark] && startsBlank (c.rest.drop 3)

/-- Whether either mark of a document stands here. -/
def atDocumentMark (c : Cursor) : Bool := c.atMark '-' || c.atMark '.'

/-- The place after a comment; the same place if there is none. -/
def skipComment (c : Cursor) : Cursor :=
  if c.at_ '#' then c.skipWhile fun char => !isBreak char else c

/-- **The place after what may follow on a line,** spacing and then a comment. A
comment has to have spacing in front of it. -/
def skipTrail? (c : Cursor) : Option Cursor :=
  if c.at_ '#' then none else some c.skipSpacing.skipComment

end Cursor

end Admission.Yaml12
