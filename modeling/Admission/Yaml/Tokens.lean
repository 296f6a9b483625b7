/-
YAML texts cut into tokens.

Two things are not decided where they are written. A collection may be written by
indentation alone, so its beginning and end are tokens that no character stands
for (`rollIn`, `unrollTo`). And a key of a mapping is known to be one only when
its colon is reached: until then it is a `PendingKey`, which remembers where among
the tokens its beginning has to be put in.
-/
import Admission.Yaml.Property
import Admission.Yaml.Scalar
import Admission.Yaml.Token

set_option autoImplicit false

namespace Admission.Yaml

/-! ## State -/

/-- **A place where a key may have begun.** -/
structure PendingKey where
  /-- how many tokens stand before it -/
  position : Nat
  /-- whether it has to be a key, since nothing else may begin in its column -/
  required : Bool
  index : Nat
  line : Nat
  column : Nat
  deriving DecidableEq

/-- **Where the cutting of a text stands.** -/
structure Scan where
  cursor : Cursor
  /-- the tokens so far -/
  tokens : List Token
  /-- the column of the innermost collection that is written by indentation -/
  indent : Int
  /-- the columns of those around it, innermost first -/
  outer : List Int
  /-- the pending key of each level of flow brackets, innermost first -/
  pending : List (Option PendingKey)
  /-- whether a key may begin here -/
  keyAllowed : Bool

namespace Scan

/-- The beginning of a text. -/
def start (cs : List Char) : Scan where
  cursor := .start cs
  tokens := []
  indent := -1
  outer := []
  pending := [none]
  keyAllowed := true

/-- Whether the place is inside flow brackets. -/
def inFlow (s : Scan) : Bool := 1 < s.pending.length

/-- One more token. -/
def push (s : Scan) (token : Token) : Scan := { s with tokens := s.tokens ++ [token] }

/-- One more token, of `n` characters. -/
def take (s : Scan) (n : Nat) (token : Token) : Scan :=
  { s.push token with cursor := s.cursor.advance n }

/-! ## Indentation -/

/-- Closing the collections that are indented more than `column`, where there are
at most `fuel` of them. -/
def unrollTo (column : Int) : (fuel : Nat) → Scan → Scan
  | 0, s => s
  | fuel + 1, s =>
    if s.inFlow || s.indent ≤ column then s
    else match s.outer with
      | [] => s
      | indent :: outer =>
        unrollTo column fuel { s.push .blockEnd with indent := indent, outer := outer }

/-- Closing every collection that is indented more than `column`. -/
def unroll (s : Scan) (column : Int) : Scan := unrollTo column s.outer.length s

/-- Opening a collection at a column that is indented more than the present one;
its beginning is put in at `position`. -/
def rollIn (s : Scan) (column position : Nat) (token : Token) : Scan :=
  if s.inFlow || column ≤ s.indent then s
  else
    { s with
      tokens := s.tokens.insertIdx position token
      indent := column
      outer := s.indent :: s.outer }

/-! ## Pending keys -/

/-- Whether a key that begins at `k` would be too long by now: it ends on its line
and after at most 1024 characters. -/
def isStale (c : Cursor) (k : PendingKey) : Bool :=
  k.line < c.line || k.index + 1024 < c.index

/-- Giving up the keys that are too long. One that has to be a key is an error. -/
def dropStale? (s : Scan) : Option Scan :=
  (s.pending.mapM fun key =>
    match key with
    | none => some none
    | some k =>
      if isStale s.cursor k then if k.required then none else some none
      else some (some k)).map fun pending => { s with pending := pending }

/-- Giving up the pending key of the innermost level. -/
def dropKey? (s : Scan) : Option Scan :=
  match s.pending with
  | [] => some s
  | key :: rest => if key.any (·.required) then none else some { s with pending := none :: rest }

/-- Remembering that a key may begin here. -/
def markKey? (s : Scan) : Option Scan :=
  if !s.keyAllowed then some s
  else
    let c := s.cursor
    let key : PendingKey :=
      ⟨s.tokens.length, !s.inFlow && s.indent == c.column, c.index, c.line, c.column⟩
    s.dropKey?.map fun s => { s with pending := some key :: s.pending.drop 1 }

/-- Whether a key may begin from here on. -/
def allowKeys (s : Scan) (allowed : Bool) : Scan := { s with keyAllowed := allowed }

/-! ## Blanks -/

/-- To the next token, over blanks and comments. Tabs are blank where no
indentation is read. A byte order mark may begin a line and then fills its first
column. -/
def skipBlanks : (fuel : Nat) → Scan → Scan
  | 0, s => s
  | fuel + 1, s =>
    let c := if s.cursor.column == 0 && s.cursor.at_ '\ufeff' then s.cursor.advance 1 else s.cursor
    let tabs := s.inFlow || !s.keyAllowed
    let c := (c.skipWhile fun char => char == ' ' || (tabs && char == '\t')).skipComment
    match c.lineBreak? with
    | some (_, next) =>
      skipBlanks fuel { s with cursor := next, keyAllowed := s.keyAllowed || !s.inFlow }
    | none => { s with cursor := c }

/-! ## Tokens -/

/-- The end of the text. -/
def finish? (s : Scan) : Option Scan :=
  (s.unroll (-1)).dropKey?.map fun s => s.push .streamEnd

/-- A directive. -/
def takeDirective? (s : Scan) : Option Scan := do
  let s ← (s.unroll (-1)).dropKey?
  let (token, c) ← directive? (s.cursor.advance 1)
  return { (s.push token).allowKeys false with cursor := c }

/-- The mark of a document's beginning or end. -/
def takeDocumentMark? (s : Scan) (token : Token) : Option Scan := do
  let s ← (s.unroll (-1)).dropKey?
  return (s.take 3 token).allowKeys false

/-- An opening flow bracket. -/
def takeOpening? (s : Scan) (token : Token) : Option Scan := do
  let s ← s.markKey?
  return { (s.take 1 token).allowKeys true with pending := none :: s.pending }

/-- A closing flow bracket. -/
def takeClosing? (s : Scan) (token : Token) : Option Scan := do
  let s ← s.dropKey?
  let pending := if s.inFlow then s.pending.drop 1 else s.pending
  return { (s.take 1 token).allowKeys false with pending := pending }

/-- A comma inside flow brackets. -/
def takeComma? (s : Scan) : Option Scan := do
  let s ← s.dropKey?
  return (s.take 1 .flowEntry).allowKeys true

/-- The dash of an item. -/
def takeDash? (s : Scan) : Option Scan := do
  if !s.inFlow && !s.keyAllowed then none
  let s ← (s.rollIn s.cursor.column s.tokens.length .blockSequenceStart).dropKey?
  return (s.take 1 .blockEntry).allowKeys true

/-- The question mark of a key. -/
def takeKey? (s : Scan) : Option Scan := do
  if !s.inFlow && !s.keyAllowed then none
  let s ← (s.rollIn s.cursor.column s.tokens.length .blockMappingStart).dropKey?
  return (s.take 1 .key).allowKeys !s.inFlow

/-- **The colon of a value.** If a key was pending, that is what it was. -/
def takeColon? (s : Scan) : Option Scan :=
  match s.pending with
  | some k :: rest =>
    let s := { s with tokens := s.tokens.insertIdx k.position .key, pending := none :: rest }
    let s := s.rollIn k.column k.position .blockMappingStart
    some ((s.take 1 .value).allowKeys false)
  | _ =>
    if !s.inFlow && !s.keyAllowed then none
    else
      let s := s.rollIn s.cursor.column s.tokens.length .blockMappingStart
      some ((s.take 1 .value).allowKeys !s.inFlow)

/-- An anchor, or an alias of one. -/
def takeAnchor? (s : Scan) (token : String → Token) : Option Scan := do
  let s ← s.markKey?
  let (name, c) ← anchorName? (s.cursor.advance 1)
  return { (s.push (token name)).allowKeys false with cursor := c }

/-- A tag. -/
def takeTag? (s : Scan) : Option Scan := do
  let s ← s.markKey?
  let (token, c) ← tag? s.inFlow s.cursor
  return { (s.push token).allowKeys false with cursor := c }

/-- A block scalar. -/
def takeBlock? (s : Scan) (style : Style) : Option Scan := do
  let s ← s.dropKey?
  let (text, c) ← block? (style == .folded) s.indent (s.cursor.advance 1)
  return { (s.push (.scalar (String.ofList text) style)).allowKeys true with cursor := c }

/-- A quoted scalar. -/
def takeQuoted? (s : Scan) (style : Style) : Option Scan := do
  let s ← s.markKey?
  let (text, c) ← quoted? (style == .singleQuoted) (s.cursor.rest.length + 1) [] (s.cursor.advance 1)
  return { (s.push (.scalar (String.ofList text) style)).allowKeys false with cursor := c }

/-- A plain scalar. -/
def takePlain? (s : Scan) : Option Scan := do
  let s ← s.markKey?
  let (text, folded, c) ←
    plain? s.inFlow (s.indent + 1).toNat (s.cursor.rest.length + 1) [] .empty s.cursor
  return { (s.push (.scalar (String.ofList text) .plain)).allowKeys folded with cursor := c }

/-- The characters that no plain scalar begins with. -/
def indicators : List Char :=
  ['-', '?', ':', ',', '[', ']', '\x7b', '\x7d', '#', '&', '*', '!', '|', '>', '\x27', '\x22', '%',
    '@', '\x60']

/-- Whether a plain scalar begins here: not with an indicator, unless it is one of
three that something follows. -/
def startsPlain (flow : Bool) : List Char → Bool
  | [] => false
  | c :: rest =>
    (!isSpacing c && !isBreak c && c ∉ indicators) ||
      (c == '-' && !rest.head?.any isSpacing) ||
      (!flow && (c == '?' || c == ':') && !startsBlank rest)

/-- **The next token,** after blanks. -/
def next? (s : Scan) : Option Scan := do
  let s ← (skipBlanks (s.cursor.rest.length + 1) s).dropStale?
  let s := s.unroll s.cursor.column
  let c := s.cursor
  match c.rest with
  | [] => s.finish?
  | char :: rest =>
    -- some indicators need a blank after them outside of flow brackets
    let alone := s.inFlow || startsBlank rest
    if c.column == 0 && char == '%' then s.takeDirective?
    else if c.atMark '-' then s.takeDocumentMark? .documentStart
    else if c.atMark '.' then s.takeDocumentMark? .documentEnd
    else if char == '[' then s.takeOpening? .flowSequenceStart
    else if char == '\x7b' then s.takeOpening? .flowMappingStart
    else if char == ']' then s.takeClosing? .flowSequenceEnd
    else if char == '\x7d' then s.takeClosing? .flowMappingEnd
    else if char == ',' then s.takeComma?
    else if char == '-' && startsBlank rest then s.takeDash?
    else if char == '?' && alone then s.takeKey?
    else if char == ':' && alone then s.takeColon?
    else if char == '*' then s.takeAnchor? .reference
    else if char == '&' then s.takeAnchor? .anchor
    else if char == '!' then s.takeTag?
    else if char == '|' && !s.inFlow then s.takeBlock? .literal
    else if char == '>' && !s.inFlow then s.takeBlock? .folded
    else if char == '\x27' then s.takeQuoted? .singleQuoted
    else if char == '\x22' then s.takeQuoted? .doubleQuoted
    else if startsPlain s.inFlow c.rest then s.takePlain?
    else none

/-- Tokens to the end of the text; each one takes a character at least. -/
def all? : (fuel : Nat) → Scan → Option (List Token)
  | 0, _ => none
  | fuel + 1, s =>
    match s.next? with
    | none => none
    | some s => if s.tokens.getLast? = some .streamEnd then some s.tokens else all? fuel s

end Scan

/-- **The tokens of a text.** -/
def Token.ofText? (text : String) : Option (List Token) :=
  let cs := text.toList
  if cs.all isAllowed then Scan.all? (cs.length + 2) (.start cs) else none

end Admission.Yaml
