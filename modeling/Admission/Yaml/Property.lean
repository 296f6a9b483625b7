/-
Names in a YAML text: anchors and aliases, tags, and the directives that a
document may begin with.

A tag is written as a handle and a suffix. A suffix may hold any character as
percent-escaped octets, which have to be the encoding of that character.
-/
import Admission.Text.Numeral
import Admission.Yaml.Cursor
import Admission.Yaml.Token

set_option autoImplicit false

namespace Admission.Yaml

/-! ## Anchors -/

/-- The characters that may follow the name of an anchor directly. -/
def nameFollowers : List Char := ['?', ':', ',', ']', '\x7d', '%', '@', '\x60']

/-- **The name of an anchor or alias,** after its indicator. -/
def anchorName? (c : Cursor) : Option (String × Cursor) :=
  let name := c.rest.takeWhile isNameChar
  let after := c.advance name.length
  if name.isEmpty then none
  else if startsBlank after.rest || after.rest.head?.any (· ∈ nameFollowers) then
    some (String.ofList name, after)
  else none

/-! ## Tags -/

/-- An octet written as a percent sign and two digits. -/
def escapedOctet? : List Char → Option (Nat × List Char)
  | '%' :: a :: b :: rest => (Text.digits? 16 0 [a, b]).map (·, rest)
  | _ => none

/-- How many octets follow the first one of a character, and the bits that the
first one brings. -/
def leadingOctet? (octet : Nat) : Option (Nat × Nat) :=
  if octet < 0x80 then some (0, octet)
  else if octet / 0x20 = 6 then some (1, octet % 0x20)
  else if octet / 0x10 = 14 then some (2, octet % 0x10)
  else if octet / 8 = 30 then some (3, octet % 8)
  else none

/-- The octets of a character after the first one. -/
def trailingOctets? : (count : Nat) → (bits : Nat) → List Char → Option (Nat × List Char)
  | 0, bits, cs => some (bits, cs)
  | count + 1, bits, cs =>
    match escapedOctet? cs with
    | none => none
    | some (octet, rest) =>
      if octet / 0x40 = 2 then trailingOctets? count (bits * 0x40 + octet % 0x40) rest else none

/-- A character written in percent-escaped octets. -/
def escapedChar? (cs : List Char) : Option (Char × List Char) :=
  match escapedOctet? cs with
  | none => none
  | some (octet, rest) =>
    match leadingOctet? octet with
    | none => none
    | some (count, bits) =>
      (trailingOctets? count bits rest).map fun (n, rest) => (Char.ofNat n, rest)

/-- The characters of a tag's suffix; inside angle brackets and in a directive,
some indicators too. -/
def isTagChar (verbatim : Bool) (c : Char) : Bool :=
  isNameChar c ||
    c ∈ [';', '/', '?', ':', '@', '&', '=', '+', '$', '.', '%', '!', '~', '*', '\x27', '(', ')'] ||
    (verbatim && c ∈ [',', '[', ']'])

/-- The suffix of a tag, perhaps empty. -/
def tagChars? (verbatim : Bool) : (fuel : Nat) → List Char → Cursor → Option (List Char × Cursor)
  | 0, _, _ => none
  | fuel + 1, text, c =>
    match c.rest with
    | '%' :: _ =>
      match escapedChar? c.rest with
      | none => none
      | some (char, rest) =>
        tagChars? verbatim fuel (text ++ [char]) (c.advance (c.rest.length - rest.length))
    | char :: _ =>
      if isTagChar verbatim char then
        tagChars? verbatim fuel (text ++ [char]) (c.advance 1)
      else some (text, c)
    | [] => some (text, c)

/-- The suffix of a tag after a beginning that has been read already. -/
def tagSuffix? (verbatim : Bool) (beginning : List Char) (c : Cursor) :
    Option (String × Cursor) :=
  (tagChars? verbatim (c.rest.length + 1) beginning c).map fun (text, c) =>
    (String.ofList text, c)

/-- A suffix that is not empty. -/
def someSuffix? (verbatim : Bool) (c : Cursor) : Option (String × Cursor) :=
  (tagSuffix? verbatim [] c).filter (·.1 != "")

/-- An exclamation mark and a name, and whether a second mark ends it. -/
def handle? (c : Cursor) : Option (List Char × Bool × Cursor) :=
  match c.rest with
  | '!' :: rest =>
    let name := rest.takeWhile isNameChar
    let after := c.advance (name.length + 1)
    if after.at_ '!' then some ('!' :: name ++ ['!'], true, after.advance 1)
    else some ('!' :: name, false, after)
  | _ => none

/-- Handle and suffix of a tag. A tag between angle brackets has an empty handle,
and so has the tag that is a lone exclamation mark. -/
def tagParts? (c : Cursor) : Option (String × String × Cursor) :=
  match c.rest with
  | '!' :: '<' :: _ =>
    match someSuffix? true (c.advance 2) with
    | some (suffix, c) => if c.at_ '>' then some ("", suffix, c.advance 1) else none
    | none => none
  | _ =>
    match handle? c with
    | none => none
    | some (handle, true, c) =>
      (someSuffix? false c).map fun (suffix, c) => (String.ofList handle, suffix, c)
    | some (handle, false, c) =>
      (tagSuffix? false (handle.drop 1) c).map fun (suffix, c) =>
        if suffix = "" then ("", "!", c) else ("!", suffix, c)

/-- **A tag.** It has to be followed by a blank, or by a comma inside flow
brackets. -/
def tag? (flow : Bool) (c : Cursor) : Option (Token × Cursor) :=
  match tagParts? c with
  | none => none
  | some (handle, suffix, c) =>
    if startsBlank c.rest || (flow && c.at_ ',') then some (.tag handle suffix, c) else none

/-! ## Directives -/

/-- The most digits that a number of a version has. -/
def maxVersionDigits : Nat := 9

/-- A number of a version. -/
def versionNumber? (c : Cursor) : Option (Nat × Cursor) :=
  let digits := c.rest.takeWhile Text.isDigit
  if maxVersionDigits < digits.length then none
  else (Text.numeral? 10 digits).map (·, c.advance digits.length)

/-- The version that a text is written in. -/
def versionDirective? (c : Cursor) : Option (Token × Cursor) :=
  match versionNumber? (c.skipWhile isSpacing) with
  | none => none
  | some (major, c) =>
    if !c.at_ '.' then none
    else (versionNumber? (c.advance 1)).map fun (minor, c) => (.versionDirective major minor, c)

/-- A handle for tags and what it stands for. -/
def tagDirective? (c : Cursor) : Option (Token × Cursor) :=
  match handle? (c.skipWhile isSpacing) with
  | none => none
  | some (handle, closed, c) =>
    if !closed && handle != ['!'] then none
    else if !c.rest.head?.any isSpacing then none
    else match someSuffix? true (c.skipWhile isSpacing) with
      | none => none
      | some (stem, c) =>
        if startsBlank c.rest then some (.tagDirective (String.ofList handle) stem, c) else none

/-- **A directive,** after its percent sign, to the beginning of the next line. One
of another name is refused. -/
def directive? (c : Cursor) : Option (Token × Cursor) :=
  let name := c.rest.takeWhile isNameChar
  let c := c.advance name.length
  if !startsBlank c.rest then none
  else
    let body? :=
      if name = "YAML".toList then versionDirective? c
      else if name = "TAG".toList then tagDirective? c
      else none
    match body? with
    | none => none
    | some (token, c) =>
      let c := (c.skipWhile isSpacing).skipComment
      if startsBreak c.rest then some (token, c.skipBreak) else none

end Admission.Yaml
