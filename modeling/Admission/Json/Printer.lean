/-
JSON values written out, without blanks between their parts.

A quote, a backslash and the control characters below a blank are escaped, the
common ones by a letter and the others by their number. Everything else stands as
it is, unless the text has to be ASCII: then a character outside it is written as
one or two sixteen-bit units.
-/
import Admission.Json

set_option autoImplicit false

namespace Admission.Json

/-- A number of sixteen bits in four small hexadecimal digits. -/
def hex4 (n : Nat) : List Char :=
  [n / 4096 % 16, n / 256 % 16, n / 16 % 16, n % 16].map fun d =>
    Char.ofNat (if d < 10 then 48 + d else 87 + d)

/-- A sixteen-bit unit as an escape. -/
def escapeUnit (n : Nat) : List Char := '\x5c' :: 'u' :: hex4 n

/-- **One character inside quotes.** -/
def escapeChar (ascii : Bool) (c : Char) : List Char :=
  let n := c.toNat
  if n = 0x22 then ['\x5c', '\x22']
  else if n = 0x5C then ['\x5c', '\x5c']
  else if n = 8 then ['\x5c', 'b']
  else if n = 9 then ['\x5c', 't']
  else if n = 10 then ['\x5c', 'n']
  else if n = 12 then ['\x5c', 'f']
  else if n = 13 then ['\x5c', 'r']
  else if n < 0x20 then escapeUnit n
  else if n < 0x7F ∨ ascii = false then [c]
  else if n < 0x10000 then escapeUnit n
  else
    let m := n - 0x10000
    escapeUnit (0xD800 + m / 0x400) ++ escapeUnit (0xDC00 + m % 0x400)

/-- A text between quotes. -/
def quote (ascii : Bool) (s : String) : String :=
  "\"" ++ String.ofList (s.toList.flatMap (escapeChar ascii)) ++ "\""

mutual

/-- **The text of a value.** -/
def text (ascii : Bool) : Json → String
  | null => "null"
  | bool true => "true"
  | bool false => "false"
  | int value => toString value
  | decimal text => text
  | string value => quote ascii value
  | array items => "[" ++ itemsText ascii items ++ "]"
  | object fields => "\x7b" ++ fieldsText ascii fields ++ "\x7d"

/-- Values with commas between them. -/
def itemsText (ascii : Bool) : List Json → String
  | [] => ""
  | [item] => text ascii item
  | item :: rest => text ascii item ++ "," ++ itemsText ascii rest

/-- Fields with commas between them. -/
def fieldsText (ascii : Bool) : List (String × Json) → String
  | [] => ""
  | [(name, value)] => quote ascii name ++ ":" ++ text ascii value
  | (name, value) :: rest =>
    quote ascii name ++ ":" ++ text ascii value ++ "," ++ fieldsText ascii rest

end

end Admission.Json
