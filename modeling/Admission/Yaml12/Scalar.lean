/-
Scalars of version 1.2 as they are written: plain, in quotes, or as a block of
lines. Every line break stands for a line feed.

Unlike the words inside a scalar, the gaps between them depend on the indentation of
the collection around: a line of a quoted scalar may not begin before it, and a tab
may stand before it on blank lines only.
-/
import Admission.Yaml12.Cursor

set_option autoImplicit false

namespace Admission.Yaml12

open Yaml (Chomping isSpacing)

/-! ## Gaps -/

/-- **A gap between two words.** -/
structure Gap where
  /-- spacing before the first break -/
  spacing : List Char
  /-- whether a line with text on it has ended in the gap -/
  folding : Bool
  /-- how many lines without text have ended in it -/
  blankLines : Nat

namespace Gap

/-- No gap. -/
def empty : Gap := ⟨[], false, 0⟩

/-- **What a gap stands for,** where the next word is the first on its line or not.
A break between lines with text becomes a space, unless lines without text lie
between; of those, each stands for a line feed. -/
def text (g : Gap) (leading : Bool) : List Char :=
  if !leading then g.spacing
  else if g.folding && g.blankLines == 0 then [' ']
  else List.replicate g.blankLines '\n'

/-- One more line that has ended. -/
def endLine (g : Gap) (blank : Bool) : Gap :=
  if blank then { g with blankLines := g.blankLines + 1 }
  else { g with spacing := [], folding := true }

/-- Reading on in a gap of a plain scalar. A tab before the column `indent` has to be
on a line that is blank apart from a comment. -/
def scanPlain? (indent : Int) : (fuel : Nat) → Gap → Cursor → Option (Gap × Cursor)
  | 0, _, _ => none
  | fuel + 1, g, c =>
    match c.nextLine? with
    | some next => scanPlain? indent fuel (g.endLine c.leading) next
    | none =>
      match c.rest with
      | char :: _ =>
        if !isSpacing char then some (g, c)
        else if !c.leading then
          scanPlain? indent fuel { g with spacing := g.spacing ++ [char] } (c.pass 1)
        else if char = '\t' ∧ c.column < indent then
          match c.skipTrail? with
          | none => none
          | some c => if startsBreak c.rest then scanPlain? indent fuel g c else none
        else scanPlain? indent fuel g (c.pass 1)
      | [] => some (g, c)

/-- Reading on in a gap of a quoted scalar; `blank` says whether the line has begun in
it. A tab before the column `indent` is refused. -/
def scanQuoted? (indent : Int) : (fuel : Nat) → (blank : Bool) → Gap → Cursor →
    Option (Gap × Bool × Cursor)
  | 0, _, _, _ => none
  | fuel + 1, blank, g, c =>
    match c.nextLine? with
    | some next => scanQuoted? indent fuel true (g.endLine blank) next
    | none =>
      match c.rest with
      | char :: _ =>
        if !isSpacing char then some (g, blank, c)
        else if !blank then
          scanQuoted? indent fuel blank { g with spacing := g.spacing ++ [char] } (c.pass 1)
        else if char = '\t' ∧ c.column < indent then none
        else scanQuoted? indent fuel blank g (c.pass 1)
      | [] => some (g, blank, c)

end Gap

/-! ## Plain scalars -/

/-- One word of a plain scalar. It ends before blanks, before a colon that is followed
by one, and inside flow brackets before their characters. -/
def plainWord (flow : Bool) : List Char → List Char
  | [] => []
  | c :: rest =>
    if isSpacing c || isBreak c then []
    else if c == ':' && (startsBlank rest || (flow && startsFlow rest)) then []
    else if flow && isFlow c then []
    else c :: plainWord flow rest

/-- **A plain scalar:** its text and the place after it, with the blanks there. A line
that begins before the column `indent` does not belong to it, unless it is in flow
brackets. -/
def plain? (flow : Bool) (indent : Int) :
    (fuel : Nat) → (text : List Char) → Gap → Cursor → Option (List Char × Cursor)
  | 0, _, _, _ => none
  | fuel + 1, text, gap, c =>
    if c.atDocumentMark || c.at_ '#' then some (text, c)
    else if flow && c.at_ '-' && startsFlow (c.rest.drop 1) then none
    else
      let word := plainWord flow c.rest
      if word.isEmpty then some (text, c)
      else
        let text := text ++ gap.text c.leading ++ word
        let c := c.advance word.length
        if c.rest.isEmpty || !startsBlank c.rest then some (text, c)
        else match Gap.empty.scanPlain? indent (c.rest.length + 1) c with
          | none => none
          | some (gap, c) =>
            if !flow && c.column < indent then some (text, c)
            else plain? flow indent fuel text gap c

/-! ## Quoted scalars -/

/-- **A quoted scalar** from the place after its opening quote to the place after its
closing one. -/
def quoted? (single : Bool) (indent : Int) :
    (fuel : Nat) → (text : List Char) → Cursor → Option (List Char × Cursor)
  | 0, _, _ => none
  | fuel + 1, text, c =>
    if c.atDocumentMark || c.rest.isEmpty || c.column < indent then none
    else
      match Yaml.quotedWord? isBreak single c.rest with
      | none => none
      | some (word, n, broken) =>
        let text := text ++ word
        let c := c.advance n
        -- a break after a backslash stands for nothing
        let c := if broken then (c.advance 1).skipBreak else c
        if c.at_ (Yaml.closingQuote single) then some (text, c.advance 1)
        else match Gap.empty.scanQuoted? indent (c.rest.length + 1) broken c with
          | none => none
          | some (gap, blank, c) => quoted? single indent fuel (text ++ gap.text blank) c

/-! ## Block scalars -/

/-- The spaces before a line of a block, up to the column `indent`, and the lines
without text before it: their number and the place after them. -/
def blockBreaks (indent : Nat) : (fuel : Nat) → (breaks : Nat) → Cursor → Nat × Cursor
  | 0, breaks, c => (breaks, c)
  | fuel + 1, breaks, c =>
    let spaces := (c.rest.takeWhile (· == ' ')).length
    let c := c.pass (min spaces (indent - c.column))
    match c.nextLine? with
    | some next => blockBreaks indent fuel (breaks + 1) next
    | none => (breaks, c)

/-- The same where the indentation is not known yet: then the deepest column among
those lines is found as well, `deepest` being that of the lines so far. -/
def blockStart : (fuel : Nat) → (deepest breaks : Nat) → Cursor → Nat × Nat × Cursor
  | 0, deepest, breaks, c => (deepest, breaks, c)
  | fuel + 1, deepest, breaks, c =>
    let c := c.pass (c.rest.takeWhile (· == ' ')).length
    let deepest := max deepest c.column
    match c.nextLine? with
    | some next => blockStart fuel deepest (breaks + 1) next
    | none => (deepest, breaks, c)

/-- **How a block is read.** -/
structure Block where
  folded : Bool
  chomping : Chomping
  /-- the column of its lines -/
  indent : Nat

/-- The lines of a block. `ended` says whether a line has ended before, `breaks` how
many lines without text have ended since, and `blankBefore` whether the line before
began with spacing; lines that do are not folded. A last line that is not ended counts
as ended if it is long enough. -/
def Block.lines (b : Block) : (fuel : Nat) → (text : List Char) → (ended : Bool) →
    (breaks : Nat) → (blankBefore : Bool) → Cursor → List Char × Cursor
  | 0, text, _, _, _, c => (text, c)
  | fuel + 1, text, ended, breaks, blankBefore, c =>
    let line := c.rest.takeWhile fun char => !isBreak char
    if c.column ≠ b.indent ∨ c.rest.isEmpty ∨ (b.indent = 0 ∧ c.atMark '.') then
      let reached := c.rest.isEmpty && max b.indent 1 ≤ c.column
      let last := if ended then ['\n'] else []
      let last := if reached then last ++ ['\n'] else last
      let last := if b.chomping = .strip then [] else last
      let tail := if b.chomping = .keep then List.replicate breaks '\n' else []
      (text ++ last ++ tail, c)
    else
      let blank := c.rest.head?.any isSpacing
      let joint :=
        if b.folded && ended && !blankBefore && !blank then if breaks = 0 then [' '] else []
        else if ended then ['\n'] else []
      let text := text ++ joint ++ List.replicate breaks '\n' ++ line
      let c := c.pass line.length
      match c.nextLine? with
      | none => b.lines fuel text false 0 blank c
      | some next =>
        let (breaks, c) := blockBreaks b.indent (next.rest.length + 1) 0 next
        b.lines fuel text true breaks blank c

/-- **A block scalar** from the place after its indicator. `parent` is the column of
the collection around it, less than zero at the top. -/
def block? (folded : Bool) (parent : Int) (c : Cursor) : Option (List Char × Cursor) := do
  let (chomping, increment, used) ← Yaml.blockHead? c.rest
  let c ← (c.advance used).skipTrail?
  if !startsBreak c.rest then none
  let c := c.skipBreak
  if c.at_ '\t' then none
  let fuel := c.rest.length + 1
  let (indent, breaks, c) : Nat × Nat × Cursor :=
    match increment with
    | some n =>
      let indent := (max parent 0).toNat + n
      (indent, blockBreaks indent fuel 0 c)
    | none =>
      let (deepest, breaks, c) := blockStart fuel 0 0 c
      (max deepest (parent + 1).toNat, breaks, c)
  if c.column < indent ∧ parent < c.column then none
  return (Block.mk folded chomping indent).lines (c.rest.length + 2) [] false breaks false c

end Admission.Yaml12
