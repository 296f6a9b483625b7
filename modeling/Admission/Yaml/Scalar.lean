/-
Scalars as they are written: plain, in quotes, or as a block of lines.

A scalar may run over several lines. Inside one, the gap between two words is
either spacing, which stays as it is, or line breaks, which are folded: a single
break becomes a space, and of several breaks the first one goes. `Gap` is such a
gap while it is being read.
-/
import Admission.Text.Numeral
import Admission.Yaml.Cursor

set_option autoImplicit false

namespace Admission.Yaml

/-! ## Gaps -/

/-- **A gap between two words.** -/
structure Gap where
  /-- whether a line has ended in the gap -/
  folding : Bool
  /-- spacing before the first break -/
  spacing : List Char
  firstBreak : Option Char
  /-- the breaks after the first one -/
  breaks : List Char

namespace Gap

/-- No gap. -/
def empty : Gap := ⟨false, [], none, []⟩

/-- A gap after a break that was escaped and stands for nothing. -/
def afterEscapedBreak : Gap := ⟨true, [], none, []⟩

/-- **What a gap stands for.** -/
def text (g : Gap) : List Char :=
  if g.folding then
    match g.firstBreak with
    | some '\n' => if g.breaks.isEmpty then [' '] else g.breaks
    | first => first.toList ++ g.breaks
  else g.spacing

/-- Reading on in a gap. A tab that stands where the indentation should be is
refused; `indent` is absent inside quotes, where there is none. -/
def scan? (indent : Option Nat) : (fuel : Nat) → Gap → Cursor → Option (Gap × Cursor)
  | 0, _, _ => none
  | fuel + 1, g, c =>
    match c.lineBreak? with
    | some (b, next) =>
      let g : Gap :=
        if g.folding then { g with breaks := g.breaks ++ [b] } else ⟨true, [], some b, []⟩
      scan? indent fuel g next
    | none =>
      match c.rest with
      | char :: _ =>
        if !isSpacing char then some (g, c)
        else if char = '\t' ∧ g.folding ∧ indent.any (c.column < ·) then none
        else
          let g : Gap := if g.folding then g else { g with spacing := g.spacing ++ [char] }
          scan? indent fuel g (c.advance 1)
      | [] => some (g, c)

end Gap

/-! ## Plain scalars -/

/-- The characters that have a meaning of their own inside flow brackets. -/
def flowIndicators : List Char := [',', '[', ']', '\x7b', '\x7d']

/-- One word of a plain scalar. It ends before blanks, before a colon that is
followed by one, and inside flow brackets before their indicators; a colon that is
followed by such an indicator there is refused. -/
def plainWord? (flow : Bool) : List Char → Option (List Char)
  | [] => some []
  | c :: rest =>
    if isSpacing c || isBreak c then some []
    else if flow && c == ':' && rest.head?.any (· ∈ '?' :: flowIndicators) then none
    else if c == ':' && startsBlank rest then some []
    else if flow && c ∈ flowIndicators then some []
    else (plainWord? flow rest).map (c :: ·)

/-- **A plain scalar:** its text, whether a line ended after its last word, and the
place after it. A line that is indented less than `indent` does not belong to it. -/
def plain? (flow : Bool) (indent : Nat) :
    (fuel : Nat) → (text : List Char) → Gap → Cursor → Option (List Char × Bool × Cursor)
  | 0, _, _, _ => none
  | fuel + 1, text, gap, c =>
    if c.atDocumentMark || c.at_ '#' then some (text, gap.folding, c)
    else match plainWord? flow c.rest with
      | none => none
      | some [] => some (text, gap.folding, c)
      | some word =>
        let text := text ++ gap.text ++ word
        let c := c.advance word.length
        if c.rest.isEmpty || !startsBlank c.rest then some (text, false, c)
        else match Gap.empty.scan? (some indent) (c.rest.length + 1) c with
          | none => none
          | some (gap, c) =>
            if !flow && c.column < indent then some (text, gap.folding, c)
            else plain? flow indent fuel text gap c

/-! ## Quoted scalars -/

/-- One word inside single quotes, with the number of characters it is written in,
where some characters break lines. A doubled quote stands for one. -/
def singleWord (breaks : Char → Bool) : List Char → List Char × Nat
  | '\x27' :: '\x27' :: rest =>
    let (word, n) := singleWord breaks rest
    ('\x27' :: word, n + 2)
  | c :: rest =>
    if c == '\x27' || isSpacing c || breaks c then ([], 0)
    else
      let (word, n) := singleWord breaks rest
      (c :: word, n + 1)
  | [] => ([], 0)

/-- The characters that a letter after a backslash stands for. -/
def escapes : List (Char × Char) :=
  [('0', '\x00'), ('a', '\x07'), ('b', '\x08'), ('t', '\t'), ('\t', '\t'), ('n', '\n'),
    ('v', '\x0b'), ('f', '\x0c'), ('r', '\r'), ('e', '\x1b'), (' ', ' '), ('\x22', '\x22'),
    ('/', '/'), ('\x5c', '\x5c'), ('N', '\u0085'), ('_', '\u00a0'), ('L', '\u2028'),
    ('P', '\u2029')]

/-- How many digits follow a letter that introduces a character by its number. -/
def escapeLengths : List (Char × Nat) := [('x', 2), ('u', 4), ('U', 8)]

/-- **What is written after a backslash,** with the number of characters used. -/
def escape? : List Char → Option (Char × Nat)
  | [] => none
  | letter :: rest =>
    match escapes.lookup letter with
    | some c => some (c, 1)
    | none =>
      match escapeLengths.lookup letter with
      | none => none
      | some length =>
        let digits := rest.take length
        if digits.length < length then none
        else match Text.digits? 16 0 digits with
          | none => none
          | some n =>
            if (0xD800 ≤ n ∧ n ≤ 0xDFFF) ∨ 0x10FFFF < n then none
            else some (Char.ofNat n, length + 1)

/-- One word inside double quotes, with the number of characters it is written in,
and whether it ends at a backslash before a line break. -/
def doubleWord? (breaks : Char → Bool) : (fuel : Nat) → List Char → Option (List Char × Nat × Bool)
  | 0, _ => none
  | _ + 1, [] => some ([], 0, false)
  | fuel + 1, c :: rest =>
    if c == '\x22' || isSpacing c || breaks c then some ([], 0, false)
    else if c = '\x5c' then
      if rest.head?.any breaks then some ([], 0, true)
      else match escape? rest with
        | none => none
        | some (char, used) =>
          (doubleWord? breaks fuel (rest.drop used)).map fun (word, n, broken) =>
            (char :: word, n + used + 1, broken)
    else (doubleWord? breaks fuel rest).map fun (word, n, broken) => (c :: word, n + 1, broken)

/-- One word inside quotes of either kind. -/
def quotedWord? (breaks : Char → Bool) (single : Bool) (cs : List Char) :
    Option (List Char × Nat × Bool) :=
  if single then
    let (word, n) := singleWord breaks cs
    some (word, n, false)
  else doubleWord? breaks (cs.length + 1) cs

/-- The quote that ends a scalar. -/
def closingQuote (single : Bool) : Char := if single then '\x27' else '\x22'

/-- **A quoted scalar** from the place after its opening quote to the place after
its closing one. -/
def quoted? (single : Bool) : (fuel : Nat) → (text : List Char) → Cursor → Option (List Char × Cursor)
  | 0, _, _ => none
  | fuel + 1, text, c =>
    if c.atDocumentMark || c.rest.isEmpty then none
    else
      match quotedWord? isBreak single c.rest with
      | none => none
      | some (word, n, broken) =>
        let text := text ++ word
        let c := c.advance n
        let (gap, c) : Gap × Cursor :=
          if broken then (Gap.afterEscapedBreak, (c.advance 1).skipBreak) else (Gap.empty, c)
        if c.at_ (closingQuote single) then some (text, c.advance 1)
        else match gap.scan? none (c.rest.length + 1) c with
          | none => none
          | some (gap, c) => quoted? single fuel (text ++ gap.text) c

/-! ## Block scalars -/

/-- What happens to the line breaks at the end of a block. -/
inductive Chomping
  | strip
  | clip
  | keep
  deriving DecidableEq

/-- The chomping indicator that a text begins with, if there is one. -/
def chomping? (cs : List Char) : Option Chomping :=
  if cs.head? = some '+' then some .keep else if cs.head? = some '-' then some .strip else none

/-- The indentation indicator that a text begins with: a digit, if there is one. -/
def indentation? (cs : List Char) : Option Nat := cs.head?.bind (Text.digit? 10)

/-- **The head of a block scalar:** chomping and indentation in either order, and
the number of characters they are written in. Indentation by zero is refused. -/
def blockHead? (cs : List Char) : Option (Chomping × Option Nat × Nat) :=
  match chomping? cs with
  | some chomping =>
    match indentation? (cs.drop 1) with
    | some 0 => none
    | some n => some (chomping, some n, 2)
    | none => some (chomping, none, 1)
  | none =>
    match indentation? cs with
    | some 0 => none
    | some n =>
      match chomping? (cs.drop 1) with
      | some chomping => some (chomping, some n, 2)
      | none => some (.clip, some n, 1)
    | none => some (.clip, none, 0)

/-- The indentation and the empty lines before a line of a block. While the
indentation is not known (`none`), the deepest one among the empty lines is
found, `deepest` being that of the lines so far. A tab inside the indentation is
refused. -/
def blockBreaks? (indent : Option Nat) : (fuel : Nat) → (deepest : Nat) → (breaks : List Char) →
    Cursor → Option (Nat × List Char × Cursor)
  | 0, _, _, _ => none
  | fuel + 1, deepest, breaks, c =>
    let spaces := (c.rest.takeWhile (· == ' ')).length
    let c := c.advance (match indent with
      | none => spaces
      | some n => min spaces (n - c.column))
    let deepest := max deepest c.column
    if indent.all (c.column < ·) ∧ c.at_ '\t' then none
    else match c.lineBreak? with
      | some (b, next) => blockBreaks? indent fuel deepest (breaks ++ [b]) next
      | none => some (deepest, breaks, c)

/-- The lines of a block. `pending` is the break after the previous line and
`blankBefore` says whether that line began with spacing; lines that do are not
folded. -/
def blockLines? (folded : Bool) (chomping : Chomping) (indent : Nat) : (fuel : Nat) →
    (text : List Char) → (pending : Option Char) → (breaks : List Char) → (blankBefore : Bool) →
    Cursor → Option (List Char × Cursor)
  | 0, _, _, _, _, _ => none
  | fuel + 1, text, pending, breaks, blankBefore, c =>
    if c.column ≠ indent ∨ c.rest.isEmpty then
      let last := if chomping = .strip then [] else pending.toList
      let tail := if chomping = .keep then breaks else []
      some (text ++ last ++ tail, c)
    else
      let blank := c.rest.head?.any isSpacing
      let joint :=
        if folded ∧ pending = some '\n' ∧ !blankBefore ∧ !blank then
          if breaks.isEmpty then [' '] else []
        else pending.toList
      let line := c.rest.takeWhile fun char => !isBreak char
      let text := text ++ joint ++ breaks ++ line
      let c := c.advance line.length
      let (pending, c) : Option Char × Cursor :=
        match c.lineBreak? with
        | some (b, next) => (some b, next)
        | none => (none, c)
      match blockBreaks? (some indent) (c.rest.length + 1) 0 [] c with
      | none => none
      | some (_, breaks, c) => blockLines? folded chomping indent fuel text pending breaks blank c

/-- **A block scalar** from the place after its indicator. `parent` is the
indentation of the collection around it, less than zero at the top. -/
def block? (folded : Bool) (parent : Int) (c : Cursor) : Option (List Char × Cursor) :=
  match blockHead? c.rest with
  | none => none
  | some (chomping, increment, used) =>
    let c := ((c.advance used).skipWhile isSpacing).skipComment
    if !startsBreak c.rest then none
    else
      let c := c.skipBreak
      let given := increment.map fun n => (max parent 0).toNat + n
      match blockBreaks? given (c.rest.length + 1) 0 [] c with
      | none => none
      | some (deepest, breaks, c) =>
        let indent := given.getD (max (max deepest (parent + 1).toNat) 1)
        blockLines? folded chomping indent (c.rest.length + 1) [] none breaks false c

end Admission.Yaml
