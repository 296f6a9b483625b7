/-
YAML texts of version 1.2 cut into tokens.

Besides the collections that are written by indentation, a level of indentation may
be prepared for the value of a key or for an item whose content comes on the lines
below: a `Level` without a collection. Content in flow brackets has to be indented by
it, and it goes when that content turns out to be a collection or a scalar.

A pair of key and value inside square brackets is a mapping of its own; its beginning
is put in when the colon is reached and its end at the next comma or bracket.
-/
import Admission.Yaml.Tokens
import Admission.Yaml12.Property
import Admission.Yaml12.Scalar

set_option autoImplicit false

namespace Admission.Yaml12

open Yaml (isNameChar isSpacing PendingKey Style Token)

/-! ## State -/

/-- **A level of indentation:** its column, and whether a collection begins there. -/
structure Level where
  column : Nat
  collection : Bool
  deriving DecidableEq

/-- **Where the cutting of a text stands.** -/
structure Scan where
  cursor : Cursor
  /-- the tokens so far -/
  tokens : List Token
  /-- the levels of indentation, innermost first -/
  levels : List Level
  /-- the pending key of each level of flow brackets, innermost first -/
  pending : List (Option PendingKey)
  /-- whether a key may begin here -/
  keyAllowed : Bool
  /-- the index at which a colon needs no blank after it inside flow brackets -/
  adjacentAt : Nat
  /-- whether a mapping has begun inside flow brackets, so that a colon belongs to it -/
  inMapping : Bool
  /-- for each pair of square brackets, innermost first, whether a mapping that is a
  single pair is open in it -/
  pairs : List Bool

namespace Scan

/-- The beginning of a text. -/
def start (cs : List Char) : Scan where
  cursor := .start cs
  tokens := []
  levels := []
  pending := [none]
  keyAllowed := true
  adjacentAt := 0
  inMapping := false
  pairs := []

/-- Whether the place is inside flow brackets. -/
def inFlow (s : Scan) : Bool := 1 < s.pending.length

/-- The column of the innermost level, less than zero if there is none. -/
def indent (s : Scan) : Int :=
  match s.levels with
  | [] => -1
  | level :: _ => level.column

/-- Whether a collection begins at the innermost level. -/
def inCollection (s : Scan) : Bool := s.levels.head?.any (·.collection)

/-- One more token. -/
def push (s : Scan) (token : Token) : Scan := { s with tokens := s.tokens ++ [token] }

/-- The place moved, over `n` characters that are no spacing. -/
def advance (s : Scan) (n : Nat) : Scan := { s with cursor := s.cursor.advance n }

/-- Whether a key may begin from here on. -/
def allowKeys (s : Scan) (allowed : Bool) : Scan := { s with keyAllowed := allowed }

/-! ## Indentation -/

/-- The levels that are left of those indented at most to a column, and the ends of
the collections of the others. -/
def closeTo (column : Int) : List Level → List Token × List Level
  | [] => ([], [])
  | level :: outer =>
    if level.column ≤ column then ([], level :: outer)
    else
      let (ends, kept) := closeTo column outer
      (if level.collection then .blockEnd :: ends else ends, kept)

/-- Closing every level that is indented more than `column`. -/
def unroll (s : Scan) (column : Int) : Scan :=
  if s.inFlow then s
  else
    let (ends, levels) := closeTo column s.levels
    { s with tokens := s.tokens ++ ends, levels := levels }

/-- Giving up the levels that are prepared. -/
def unprepare (s : Scan) : Scan := { s with levels := s.levels.dropWhile (!·.collection) }

/-- Preparing a level one column further in than the present collection. -/
def prepare (s : Scan) : Scan :=
  match s.levels with
  | ⟨column, true⟩ :: _ =>
    if s.inFlow then s else { s with levels := ⟨column + 1, false⟩ :: s.levels }
  | _ => s

/-- Opening a collection at a column that is indented more than the present one; its
beginning is put in at `position`. A level that was prepared for it gives way. -/
def rollIn (s : Scan) (column position : Nat) (token : Token) : Scan :=
  if s.inFlow then s
  else
    let s := match s.levels with
      | ⟨prepared, false⟩ :: outer => if prepared ≤ column then { s with levels := outer } else s
      | _ => s
    if (column : Int) ≤ s.indent then s
    else
      { s with
        tokens := s.tokens.insertIdx position token
        levels := ⟨column, true⟩ :: s.levels }

/-! ## Pending keys -/

/-- Giving up the pending key outside of flow brackets if it is too long by now. One
that has to be a key is an error. -/
def dropStale? (s : Scan) : Option Scan :=
  match s.pending with
  | [some k] =>
    if k.line < s.cursor.line ∨ k.index + 1024 < s.cursor.index then
      if k.required then none else some { s with pending := [none] }
    else some s
  | _ => some s

/-- Giving up the pending key of the innermost level. -/
def dropKey? (s : Scan) : Option Scan :=
  match s.pending with
  | [] => some s
  | key :: rest => if key.any (·.required) then none else some { s with pending := none :: rest }

/-- Remembering that a key may begin here, in place of another one. -/
def markKey (s : Scan) : Scan :=
  if !s.keyAllowed then s
  else
    let c := s.cursor
    let required := !s.inFlow && s.inCollection && s.indent == c.column
    let key : PendingKey := ⟨s.tokens.length, required, c.index, c.line, c.column⟩
    { s with pending := some key :: s.pending.drop 1 }

/-! ## Blanks -/

/-- The place after what may follow on the line. -/
def skipTrail? (s : Scan) : Option Scan := s.cursor.skipTrail?.map fun c => { s with cursor := c }

/-- **To the next token,** over blanks and comments. A tab in place of indentation has
to be on a line without a token. -/
def skipBlanks? : (fuel : Nat) → Scan → Option Scan
  | 0, _ => none
  | fuel + 1, s =>
    let c := s.cursor
    match c.nextLine? with
    | some next => skipBlanks? fuel { s with cursor := next, keyAllowed := s.keyAllowed || !s.inFlow }
    | none =>
      match c.rest with
      | [] => some s
      | char :: _ =>
        if char = '\t' ∧ !s.levels.isEmpty ∧ c.leading ∧ c.column < s.indent then
          match c.skipTrail? with
          | none => none
          | some c => if startsBreak c.rest then skipBlanks? fuel { s with cursor := c } else none
        else if isSpacing char then skipBlanks? fuel { s with cursor := c.pass 1 }
        else if char = '#' then skipBlanks? fuel { s with cursor := c.skipComment }
        else some s

/-- After the question mark of a key, over spaces, line breaks and comments, of which
at least one space or break has to be there. A tab may not follow. -/
def skipAfterKey? : (fuel : Nat) → (found : Bool) → Scan → Option Scan
  | 0, _, _ => none
  | fuel + 1, found, s =>
    let c := s.cursor
    match c.nextLine? with
    | some next =>
      skipAfterKey? fuel true { s with cursor := next, keyAllowed := s.keyAllowed || !s.inFlow }
    | none =>
      if c.at_ ' ' then skipAfterKey? fuel true { s with cursor := c.pass 1 }
      else if c.at_ '#' then skipAfterKey? fuel found { s with cursor := c.skipComment }
      else if !found || c.at_ '\t' then none
      else some s

/-- To the next token. -/
def toToken? (s : Scan) : Option Scan := skipBlanks? (s.cursor.rest.length + 1) s

/-! ## Tokens -/

/-- The end of the text. -/
def finish? (s : Scan) : Option Scan :=
  if s.pending.any (·.any (·.required)) then none else some ((s.unroll (-1)).push .streamEnd)

/-- A directive. -/
def takeDirective? (s : Scan) : Option Scan := do
  let s ← (s.unroll (-1)).dropKey?
  let (token, c) ← directive? (s.cursor.advance 1)
  return { (s.push token).allowKeys false with cursor := c }

/-- The mark of a document's beginning. -/
def takeDocumentStart? (s : Scan) : Option Scan := do
  let s ← (s.unroll (-1)).dropKey?
  return ((s.push .documentStart).advance 3).allowKeys false

/-- The mark of a document's end, after which the line has to end. -/
def takeDocumentEnd? (s : Scan) : Option Scan := do
  let s ← (s.unroll (-1)).dropKey?
  let s ← (((s.push .documentEnd).advance 3).allowKeys false).skipTrail?
  if startsBreak s.cursor.rest then return s else none

/-- The most flow brackets inside one another. -/
def maxFlow : Nat := 255

/-- An opening flow bracket. -/
def takeOpening? (s : Scan) (token : Token) : Option Scan := do
  let s := s.markKey.prepare
  if maxFlow < s.pending.length then none
  let s := { s with pending := none :: s.pending, keyAllowed := true }
  let s :=
    if token = .flowMappingStart then { s with inMapping := true }
    else { s with pairs := false :: s.pairs }
  (((s.push token).advance 1)).skipTrail?

/-- Closing the mapping that is a single pair inside square brackets, if one is
open. -/
def endPair (s : Scan) : Scan :=
  match s.pairs with
  | true :: outer => { s.push .flowMappingEnd with inMapping := false, pairs := false :: outer }
  | _ => s

/-- A closing flow bracket. -/
def takeClosing? (s : Scan) (token : Token) : Option Scan := do
  let s ← s.dropKey?
  let s := { s with pending := if s.inFlow then s.pending.drop 1 else s.pending, keyAllowed := false }
  let s :=
    if token = .flowSequenceEnd then
      let s := s.endPair
      { s with pairs := s.pairs.drop 1 }
    else s
  let s ← ((s.push token).advance 1).skipTrail?
  return if s.inFlow then { s with adjacentAt := s.cursor.index } else s

/-- A comma inside flow brackets. -/
def takeComma? (s : Scan) : Option Scan := do
  let s ← s.dropKey?
  (((s.allowKeys true).endPair.push .flowEntry).advance 1).skipTrail?

/-- The dash of an item. Another dash may follow it after spaces only. -/
def takeDash? (s : Scan) : Option Scan := do
  if s.inFlow || !s.keyAllowed then none
  let s := (s.rollIn s.cursor.column s.tokens.length .blockSequenceStart).advance 1
  let tabbed := s.cursor.spacing.contains '\t'
  let s ← s.skipTrail?
  let rest := s.cursor.rest
  if tabbed && s.cursor.at_ '-' && startsBlank (rest.drop 1) then none
  let s := if (!rest.isEmpty && startsBreak rest) || startsFlow rest then s.prepare else s
  let s ← s.dropKey?
  return (s.push .blockEntry).allowKeys true

/-- The question mark of a key. -/
def takeKey? (s : Scan) : Option Scan := do
  if !s.inFlow && !s.keyAllowed then none
  let s :=
    if s.inFlow then { s with inMapping := true }
    else s.rollIn s.cursor.column s.tokens.length .blockMappingStart
  let s ← s.dropKey?
  let s ← skipAfterKey? (s.cursor.rest.length + 1) false ((s.allowKeys !s.inFlow).advance 1)
  return s.push .key

/-- **The colon of a value.** If a key was pending, that is what it was. -/
def takeColon? (s : Scan) : Option Scan := do
  let colon := s.cursor
  -- inside square brackets and outside of a mapping, a mapping begins with the key
  let single := !s.pairs.isEmpty && !s.inMapping
  let s := if single then { s with pairs := true :: s.pairs.drop 1 } else s
  let s := s.advance 1
  let spacing := s.cursor.spacing
  let s ← if s.cursor.at_ '\t' then s.skipTrail? else some s
  -- tabs alone do not separate a value from its colon
  let bare := spacing.head? == some '\t' && !spacing.contains ' '
  if bare && s.cursor.rest.head?.any fun char => char == '-' || isNameChar char then none
  match s.pending with
  | some k :: rest =>
    if single ∧ k.line < colon.line then none
    let tokens := s.tokens.insertIdx k.position .key
    let tokens := if single then tokens.insertIdx k.position .flowMappingStart else tokens
    let s := { s with tokens := tokens, pending := none :: rest }
    let s := (s.rollIn k.column k.position .blockMappingStart).prepare
    return (s.push .value).allowKeys false
  | _ =>
    let s := if single then s.push .flowMappingStart else s
    if !s.inFlow && !s.keyAllowed then none
    let s := (s.rollIn colon.column s.tokens.length .blockMappingStart).prepare
    return (s.push .value).allowKeys !s.inFlow

/-- An anchor, or an alias of one. -/
def takeAnchor? (s : Scan) (token : String → Token) : Option Scan := do
  let s := s.markKey
  let (name, c) ← anchorName? (s.cursor.advance 1)
  return { (s.push (token name)).allowKeys false with cursor := c }

/-- A tag. -/
def takeTag? (s : Scan) : Option Scan := do
  let s := s.markKey
  let (token, c) ← tag? s.inFlow s.cursor
  return { (s.push token).allowKeys false with cursor := c }

/-- A block scalar. -/
def takeBlock? (s : Scan) (style : Style) : Option Scan := do
  let s := s.markKey.unprepare
  let (text, c) ← block? (style == .folded) s.indent (s.cursor.advance 1)
  return { (s.push (.scalar (String.ofList text) style)).allowKeys true with cursor := c }

/-- Whether a quoted scalar that began at a line may end at a place: before the end of
a line, a colon, or inside flow brackets a closing bracket or comma. -/
def endsQuoted (flow : Bool) (line : Nat) (c : Cursor) : Bool :=
  match c.rest with
  | [] => true
  | char :: _ =>
    isBreak char || (flow && (char == ',' || char == ']' || char == '\x7d')) ||
      (char == ':' && (flow || line == c.line))

/-- A quoted scalar. A colon may follow it directly inside flow brackets. -/
def takeQuoted? (s : Scan) (style : Style) : Option Scan := do
  let line := s.cursor.line
  let s := s.markKey.allowKeys false
  let (text, c) ←
    quoted? (style == .singleQuoted) s.indent (s.cursor.rest.length + 1) [] (s.cursor.advance 1)
  let s ← { s with cursor := c }.skipTrail?
  if !endsQuoted s.inFlow line s.cursor then none
  let s ← s.toToken?
  return { s.push (.scalar (String.ofList text) style) with adjacentAt := s.cursor.index }

/-- A plain scalar. It has to be indented inside flow brackets too. -/
def takePlain? (s : Scan) : Option Scan := do
  let s := (s.markKey.allowKeys false).unprepare
  let indent := s.indent + 1
  if s.inFlow ∧ s.cursor.column < indent then none
  let (text, c) ← plain? s.inFlow indent (s.cursor.rest.length + 1) [] .empty s.cursor
  let s := { s.push (.scalar (String.ofList text) .plain) with cursor := c }
  return s.allowKeys (s.keyAllowed || c.leading)

/-- **The next token,** after blanks. -/
def next? (s : Scan) : Option Scan := do
  let s ← (← s.toToken?).dropStale?
  let s := s.unroll s.cursor.column
  let c := s.cursor
  match c.rest with
  | [] => s.finish?
  | char :: rest =>
    let alone := startsBlank rest
    if c.column == 0 && char == '%' then s.takeDirective?
    else if c.atMark '-' then s.takeDocumentStart?
    else if c.atMark '.' then s.takeDocumentEnd?
    else if c.column < s.indent then none
    else if char == '[' then s.takeOpening? .flowSequenceStart
    else if char == '\x7b' then s.takeOpening? .flowMappingStart
    else if char == ']' then s.takeClosing? .flowSequenceEnd
    else if char == '\x7d' then s.takeClosing? .flowMappingEnd
    else if char == ',' then s.takeComma?
    else if char == '-' && alone then s.takeDash?
    else if char == '?' && alone then s.takeKey?
    else if char == ':' && (alone || (s.inFlow && (startsFlow rest || c.index == s.adjacentAt))) then
      s.takeColon?
    else if char == '*' then s.takeAnchor? .reference
    else if char == '&' then s.takeAnchor? .anchor
    else if char == '!' then s.takeTag?
    else if char == '|' && !s.inFlow then s.takeBlock? .literal
    else if char == '>' && !s.inFlow then s.takeBlock? .folded
    else if char == '\x27' then s.takeQuoted? .singleQuoted
    else if char == '\x22' then s.takeQuoted? .doubleQuoted
    else if char == '%' || char == '@' || char == '\x60' then none
    else s.takePlain?

/-- Tokens to the end of the text; each one takes a character at least. -/
def all? : (fuel : Nat) → Scan → Option (List Token)
  | 0, _ => none
  | fuel + 1, s =>
    match s.next? with
    | none => none
    | some s => if s.tokens.getLast? = some .streamEnd then some s.tokens else all? fuel s

end Scan

/-- **The tokens of a text,** up to its first NUL. -/
def tokens? (text : String) : Option (List Token) :=
  let cs := text.toList.takeWhile (· != '\x00')
  Scan.all? (cs.length + 2) (.start cs)

end Admission.Yaml12
