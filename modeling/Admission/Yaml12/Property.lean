/-
Names in a YAML text of version 1.2: anchors and aliases, tags, and directives.

The name of an anchor may hold nearly every character. A percent-escaped character of
a tag is the number that its octets write in base 256, which is the character itself
where there is one octet.
-/
import Admission.Yaml.Property
import Admission.Yaml12.Cursor

set_option autoImplicit false

namespace Admission.Yaml12

open Yaml (isNameChar isSpacing escapedOctet? leadingOctet? maxVersionDigits Token)

/-! ## Anchors -/

/-- **The name of an anchor or alias,** after its indicator. -/
def anchorName? (c : Cursor) : Option (String × Cursor) :=
  let name := c.rest.takeWhile isAnchorChar
  if name.isEmpty then none else some (String.ofList name, c.advance name.length)

/-! ## Tags -/

/-- The number that octets write after those that gave `number`. -/
def escapedNumber? : (count : Nat) → (number : Nat) → List Char → Option (Nat × List Char)
  | 0, number, cs => some (number, cs)
  | count + 1, number, cs => do
    let (octet, rest) ← escapedOctet? cs
    if octet / 0x40 = 2 then escapedNumber? count (number * 256 + octet) rest else none

/-- A character written in percent-escaped octets. -/
def escapedChar? (cs : List Char) : Option (Char × List Char) := do
  let (octet, rest) ← escapedOctet? cs
  let (count, _) ← leadingOctet? octet
  let (number, rest) ← escapedNumber? count octet rest
  if number.isValidChar then some (Char.ofNat number, rest) else none

/-- A character of a tag between angle brackets, or of what a handle stands for. -/
def isUriChar (c : Char) : Bool :=
  isNameChar c ||
    c ∈ ['#', ';', '/', '?', ':', '@', '&', '=', '+', '$', ',', '.', '!', '~', '*', '\x27', '(', ')',
      '[', ']', '%']

/-- A character of the suffix of a tag. -/
def isTagChar (c : Char) : Bool := isUriChar c && !isFlow c && c != '!'

/-- Characters of a class, perhaps escaped, after those of `text`. -/
def escapedText? (isAllowed : Char → Bool) :
    (fuel : Nat) → (text : List Char) → Cursor → Option (List Char × Cursor)
  | 0, _, _ => none
  | fuel + 1, text, c =>
    match c.rest with
    | [] => some (text, c)
    | char :: _ =>
      if !isAllowed char then some (text, c)
      else if char = '%' then
        match escapedChar? c.rest with
        | none => none
        | some (char, rest) =>
          escapedText? isAllowed fuel (text ++ [char]) (c.advance (c.rest.length - rest.length))
      else escapedText? isAllowed fuel (text ++ [char]) (c.advance 1)

/-- Characters of a class, perhaps escaped. -/
def uri? (isAllowed : Char → Bool) (c : Cursor) : Option (String × Cursor) :=
  (escapedText? isAllowed (c.rest.length + 1) [] c).map fun (text, c) => (String.ofList text, c)

/-- An exclamation mark and a name, and whether a second mark ends it. -/
def handle? (c : Cursor) : Option (String × Bool × Cursor) :=
  match c.rest with
  | '!' :: rest =>
    let name := rest.takeWhile isNameChar
    let after := c.advance (name.length + 1)
    if after.at_ '!' then some (String.ofList ('!' :: name ++ ['!']), true, after.advance 1)
    else some (String.ofList ('!' :: name), false, after)
  | _ => none

/-- Handle and suffix of a tag. A tag between angle brackets has an empty handle, and
so has the tag that is a lone exclamation mark; a named handle needs a suffix. -/
def tagParts? (c : Cursor) : Option (String × String × Cursor) :=
  match c.rest with
  | '!' :: '<' :: _ => do
    let (suffix, c) ← uri? isUriChar (c.advance 2)
    if c.at_ '>' then return ("", suffix, c.advance 1) else none
  | _ => do
    let (handle, closed, after) ← handle? c
    if closed then
      let (suffix, c) ← uri? isTagChar after
      if suffix = "" then none else return (handle, suffix, c)
    else
      -- what looked like a name belongs to the suffix
      let (suffix, c) ← uri? isTagChar after
      let suffix := String.ofList (handle.toList.drop 1) ++ suffix
      return if suffix = "" then ("", "!", c) else ("!", suffix, c)

/-- **A tag.** It has to be followed by a blank, or inside flow brackets by one of their
characters. -/
def tag? (flow : Bool) (c : Cursor) : Option (Token × Cursor) := do
  let (handle, suffix, c) ← tagParts? c
  if startsBlank c.rest || (flow && startsFlow c.rest) then return (.tag handle suffix, c) else none

/-! ## Directives -/

/-- A number of a version. -/
def versionNumber? (c : Cursor) : Option (Nat × Cursor) :=
  let digits := c.rest.takeWhile Text.isDigit
  if maxVersionDigits < digits.length then none
  else (Text.numeral? 10 digits).map (·, c.advance digits.length)

/-- The version that a text is written in. -/
def versionDirective? (c : Cursor) : Option (Token × Cursor) := do
  let (major, c) ← versionNumber? c.skipSpacing
  if !c.at_ '.' then none
  let (minor, c) ← versionNumber? (c.advance 1)
  return (.versionDirective major minor, c)

/-- What a handle stands for: an exclamation mark or a character of a suffix, and then
any that tags have. -/
def stem? (c : Cursor) : Option (String × Cursor) :=
  match c.rest with
  | char :: _ => if char = '!' ∨ isTagChar char then uri? isUriChar c else none
  | [] => none

/-- A handle for tags and what it stands for. -/
def tagDirective? (c : Cursor) : Option (Token × Cursor) := do
  let (handle, closed, c) ← handle? c.skipSpacing
  if !closed && handle != "!" then none
  let (stem, c) ← stem? c.skipSpacing
  if startsBlank c.rest then return (.tagDirective handle stem, c) else none

/-- **A directive,** after its percent sign, to the beginning of the next line. One of
another name declares nothing, which is written as a handle without a name. -/
def directive? (c : Cursor) : Option (Token × Cursor) := do
  let name := c.rest.takeWhile isNameChar
  let c := c.advance name.length
  if name.isEmpty || !startsBlank c.rest then none
  let (token, c) ←
    if name = "YAML".toList then versionDirective? c
    else if name = "TAG".toList then tagDirective? c
    else some (.tagDirective "" "", c.skipWhile fun char => !isBreak char)
  let c ← c.skipTrail?
  if startsBreak c.rest then return (token, c.skipBreak) else none

end Admission.Yaml12
