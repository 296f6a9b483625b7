/-
A place in a YAML text: what is left of it, and on which line and in which column
that begins. Columns matter, since nesting is written by indentation; the number
of characters before the place matters once, for the longest key that may stand
before a colon.
-/

set_option autoImplicit false

namespace Admission.Yaml

/-! ## Characters -/

/-- Space or tab. -/
def isSpacing (c : Char) : Bool := c == ' ' || c == '\t'

/-- A character that ends a line. -/
def isBreak (c : Char) : Bool :=
  c == '\n' || c == '\r' || c == '\u0085' || c == '\u2028' || c == '\u2029'

/-- Whether a text begins with something that is no visible character: spacing, a
line break, or the end. -/
def startsBlank : List Char → Bool
  | [] => true
  | c :: _ => isSpacing c || isBreak c

/-- Whether a text begins with a line break or is at its end. -/
def startsBreak : List Char → Bool
  | [] => true
  | c :: _ => isBreak c

/-- A character of names: of anchors, handles and directives. -/
def isNameChar (c : Char) : Bool := c.isAlphanum || c == '_' || c == '-'

/-- **The characters that a YAML text may hold.** -/
def isAllowed (c : Char) : Bool :=
  let n := c.toNat
  n == 9 || n == 10 || n == 13 || (0x20 ≤ n && n ≤ 0x7E) || n == 0x85 ||
    (0xA0 ≤ n && n ≤ 0xD7FF) || (0xE000 ≤ n && n ≤ 0xFFFD) || 0x10000 ≤ n

/-! ## Cursors -/

/-- **A place in a text.** -/
structure Cursor where
  rest : List Char
  index : Nat
  line : Nat
  column : Nat
  deriving DecidableEq

namespace Cursor

/-- The beginning of a text. -/
def start (cs : List Char) : Cursor := ⟨cs, 0, 0, 0⟩

/-- The place `n` characters further on the same line. -/
def advance (c : Cursor) (n : Nat) : Cursor :=
  ⟨c.rest.drop n, c.index + n, c.line, c.column + n⟩

/-- The place after all characters that have a property, none of them a break. -/
def skipWhile (c : Cursor) (p : Char → Bool) : Cursor := c.advance (c.rest.takeWhile p).length

/-- **The line break here, if there is one,** as the character it stands for, and
the beginning of the next line. A return with a line feed is one break. -/
def lineBreak? (c : Cursor) : Option (Char × Cursor) :=
  let next (b : Char) (n : Nat) : Option (Char × Cursor) :=
    some (b, ⟨c.rest.drop n, c.index + n, c.line + 1, 0⟩)
  match c.rest with
  | '\r' :: '\n' :: _ => next '\n' 2
  | '\r' :: _ | '\n' :: _ | '\u0085' :: _ => next '\n' 1
  | '\u2028' :: _ => next '\u2028' 1
  | '\u2029' :: _ => next '\u2029' 1
  | _ => none

/-- The place after the line break here; the same place if there is none. -/
def skipBreak (c : Cursor) : Cursor :=
  match c.lineBreak? with
  | some (_, next) => next
  | none => c

/-- Whether a character stands here. -/
def at_ (c : Cursor) (char : Char) : Bool := c.rest.head? == some char

/-- Whether the mark of a document's beginning or end stands here. -/
def atMark (c : Cursor) (mark : Char) : Bool :=
  c.column == 0 && c.rest.take 3 == [mark, mark, mark] && startsBlank (c.rest.drop 3)

/-- Whether either mark of a document stands here. -/
def atDocumentMark (c : Cursor) : Bool := c.atMark '-' || c.atMark '.'

/-- The place after a comment; the same place if there is none. -/
def skipComment (c : Cursor) : Cursor :=
  if c.at_ '#' then c.skipWhile fun char => !isBreak char else c

end Cursor

end Admission.Yaml
