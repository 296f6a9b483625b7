/-
JSON texts read as values.

The reader takes the whole text and refuses anything that is left over. It goes
down one level of the value for each level of brackets, and its fuel is the length
of the text, which no value outgrows.
-/
import Admission.Json
import Admission.Text.Numeral

set_option autoImplicit false

namespace Admission.Json

/-- A text without the blanks at its front. -/
def skipBlanks (cs : List Char) : List Char :=
  cs.dropWhile fun c => c == ' ' || c == '\n' || c == '\t' || c == '\r'

/-- A text without a given beginning. -/
def strip? : (beginning : List Char) → List Char → Option (List Char)
  | [], cs => some cs
  | b :: beginning, c :: cs => if b = c then strip? beginning cs else none
  | _ :: _, [] => none

/-! ## Strings -/

/-- A sixteen-bit unit: four hexadecimal digits. -/
def unit? (cs : List Char) : Option (Nat × List Char) :=
  let digits := cs.take 4
  if digits.length < 4 then none
  else (Text.digits? 16 0 digits).map (·, cs.drop 4)

/-- The character of an escape letter that stands for a single character. -/
def letterEscape? (c : Char) : Option Char :=
  [('\x22', '\x22'), ('\x5c', '\x5c'), ('/', '/'), ('b', '\x08'), ('f', '\x0c'), ('n', '\n'),
    ('r', '\r'), ('t', '\t')].lookup c

/-- The character of one or two units. A unit of a pair does not stand alone. -/
def unicodeEscape? (cs : List Char) : Option (Char × List Char) :=
  match unit? cs with
  | none => none
  | some (high, rest) =>
    if high < 0xD800 ∨ 0xDFFF < high then some (Char.ofNat high, rest)
    else if 0xDC00 ≤ high then none
    else match rest with
      | '\x5c' :: 'u' :: rest =>
        match unit? rest with
        | some (low, rest) =>
          if 0xDC00 ≤ low ∧ low ≤ 0xDFFF then
            some (Char.ofNat (0x10000 + (high - 0xD800) * 0x400 + (low - 0xDC00)), rest)
          else none
        | none => none
      | _ => none

/-- The rest of a string after its opening quote; what was read so far is in
`read`, latest first. -/
def stringFrom? : (fuel : Nat) → (read : List Char) → List Char → Option (String × List Char)
  | 0, _, _ => none
  | _ + 1, _, [] => none
  | fuel + 1, read, c :: rest =>
    if c = '\x22' then some (String.ofList read.reverse, rest)
    else if c.toNat < 0x20 then none
    else if c = '\x5c' then
      match rest with
      | [] => none
      | 'u' :: rest =>
        match unicodeEscape? rest with
        | some (decoded, rest) => stringFrom? fuel (decoded :: read) rest
        | none => none
      | letter :: rest =>
        match letterEscape? letter with
        | some decoded => stringFrom? fuel (decoded :: read) rest
        | none => none
    else stringFrom? fuel (c :: read) rest

/-! ## Numbers -/

/-- The digits at the front of a text, and the rest. -/
def takeDigits (cs : List Char) : List Char × List Char :=
  (cs.takeWhile Text.isDigit, cs.dropWhile Text.isDigit)

/-- The part of a number after its point; nothing if there is no point. -/
def fraction? (cs : List Char) : Option (List Char × List Char) :=
  match cs with
  | '.' :: rest =>
    let (digits, rest) := takeDigits rest
    if digits.isEmpty then none else some ('.' :: digits, rest)
  | _ => some ([], cs)

/-- The exponent of a number; nothing if there is none. -/
def exponent? (cs : List Char) : Option (List Char × List Char) :=
  match cs with
  | e :: rest =>
    if e = 'e' ∨ e = 'E' then
      let (sign, rest) : List Char × List Char := match rest with
        | '+' :: rest => (['+'], rest)
        | '-' :: rest => (['-'], rest)
        | _ => ([], rest)
      let (digits, rest) := takeDigits rest
      if digits.isEmpty then none else some (e :: sign ++ digits, rest)
    else some ([], cs)
  | [] => some ([], cs)

/-- **A number.** No digit comes before another one after a leading zero. -/
def number? (cs : List Char) : Option (Json × List Char) :=
  let (negative, body) := match cs with
    | '-' :: rest => (true, rest)
    | _ => (false, cs)
  let (whole, rest) := takeDigits body
  if whole.isEmpty ∨ (1 < whole.length ∧ whole.head? = some '0') then none
  else match fraction? rest with
    | none => none
    | some (fraction, rest) =>
      match exponent? rest with
      | none => none
      | some (exponent, rest) =>
        let sign := if negative then ['-'] else []
        if fraction.isEmpty ∧ exponent.isEmpty ∧ ¬(negative ∧ whole = ['0']) then
          (Text.signed? 10 (sign ++ whole)).map (int ·, rest)
        else some (decimal (String.ofList (sign ++ whole ++ fraction ++ exponent)), rest)

/-! ## Values -/

mutual

/-- A value at the front of a text. -/
def valueFrom? : (fuel : Nat) → List Char → Option (Json × List Char)
  | 0, _ => none
  | fuel + 1, cs =>
    match skipBlanks cs with
    | [] => none
    | '\x22' :: rest =>
      (stringFrom? (rest.length + 1) [] rest).map fun (s, rest) => (string s, rest)
    | '[' :: rest =>
      match skipBlanks rest with
      | ']' :: rest => some (array [], rest)
      | _ => (itemsFrom? fuel rest).map fun (items, rest) => (array items, rest)
    | '\x7b' :: rest =>
      match skipBlanks rest with
      | '\x7d' :: rest => some (object [], rest)
      | _ => (fieldsFrom? fuel rest).map fun (fields, rest) => (object fields, rest)
    | 'n' :: rest => (strip? "ull".toList rest).map (null, ·)
    | 't' :: rest => (strip? "rue".toList rest).map (bool true, ·)
    | 'f' :: rest => (strip? "alse".toList rest).map (bool false, ·)
    | c :: rest => number? (c :: rest)

/-- The items of an array up to its closing bracket; there is one at least. -/
def itemsFrom? : (fuel : Nat) → List Char → Option (List Json × List Char)
  | 0, _ => none
  | fuel + 1, cs =>
    match valueFrom? fuel cs with
    | none => none
    | some (item, rest) =>
      match skipBlanks rest with
      | ',' :: rest => (itemsFrom? fuel rest).map fun (items, rest) => (item :: items, rest)
      | ']' :: rest => some ([item], rest)
      | _ => none

/-- The fields of an object up to its closing bracket; there is one at least. -/
def fieldsFrom? : (fuel : Nat) → List Char → Option (List (String × Json) × List Char)
  | 0, _ => none
  | fuel + 1, cs =>
    match skipBlanks cs with
    | '\x22' :: rest =>
      match stringFrom? (rest.length + 1) [] rest with
      | none => none
      | some (name, rest) =>
        match skipBlanks rest with
        | ':' :: rest =>
          match valueFrom? fuel rest with
          | none => none
          | some (value, rest) =>
            match skipBlanks rest with
            | ',' :: rest =>
              (fieldsFrom? fuel rest).map fun (fields, rest) => ((name, value) :: fields, rest)
            | '\x7d' :: rest => some ([(name, value)], rest)
            | _ => none
        | _ => none
    | _ => none

end

/-- **Reading a JSON text.** -/
def parse? (s : String) : Option Json :=
  let cs := s.toList
  match valueFrom? (cs.length + 1) cs with
  | some (value, rest) => if (skipBlanks rest).isEmpty then some value else none
  | none => none

end Admission.Json
