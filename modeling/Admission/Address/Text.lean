/-
How addresses are written and read.

The written form is unique: decimal octets without leading zeros, groups in small
hexadecimal digits, and the first of the longest runs of two or more zero groups
shortened to a double colon; a mapped address shows the address it holds. Reading
is more generous: a double colon may stand for any run of zero groups, digits may
be capital, and the last two groups may be written as octets.
-/
import Admission.Address
import Admission.Text.Fields
import Admission.Text.Numeral
import Admission.Text.Blank

set_option autoImplicit false

namespace Admission

open Text

/-! ## Writing -/

/-- The four octets in decimal, with points. -/
def IPv4.text (v : IPv4) : String :=
  Nat.repr v.a.val ++ "." ++ Nat.repr v.b.val ++ "." ++ Nat.repr v.c.val ++ "." ++
    Nat.repr v.d.val

/-- Groups in hexadecimal, with colons. -/
def groupsText (groups : List (Fin 65536)) : String :=
  String.ofList (joinList ':' (groups.map fun g => Nat.toDigits 16 g.val))

/-- How many zero groups a list starts with. -/
def leadingZeros (groups : List (Fin 65536)) : Nat := (groups.takeWhile (· == 0)).length

/-- **The first of the longest runs of zero groups,** as its position and length,
among the runs that start at the front of the list or later; `position` is that of
the front. -/
def longestZeros (position : Nat) : List (Fin 65536) → Nat × Nat
  | [] => (position, 0)
  | g :: rest =>
    let here := leadingZeros (g :: rest)
    let later := longestZeros (position + 1) rest
    if here < later.2 then later else (position, here)

/-- **The text of an address of the sixth version.** -/
def IPv6.text (v : IPv6) : String :=
  match v.mapped? with
  | some inner => "::ffff:" ++ inner.text
  | none =>
    let (start, length) := longestZeros 0 v.groups
    if 1 < length then
      groupsText (v.groups.take start) ++ "::" ++ groupsText (v.groups.drop (start + length))
    else groupsText v.groups

/-- **The text of an address.** -/
def IpAddress.text : IpAddress → String
  | v4 address => address.text
  | v6 address => address.text

/-- The text of an address with a port. -/
def SocketAddress.text : SocketAddress → String
  | v4 address port => address.text ++ ":" ++ Nat.repr port.val
  | v6 address zone port =>
    let shown := if zone.val = 0 then address.text else address.text ++ "%" ++ Nat.repr zone.val
    "[" ++ shown ++ "]:" ++ Nat.repr port.val

/-! ## Reading -/

/-- A number below a bound. -/
def below? (bound : Nat) (n : Nat) : Option (Fin bound) :=
  if h : n < bound then some ⟨n, h⟩ else none

/-- An octet: one to three decimal digits, no zero before another digit. -/
def octet? (cs : List Char) : Option (Fin 256) :=
  if 3 < cs.length ∨ (1 < cs.length ∧ cs.head? = some '0') then none
  else (numeral? 10 cs).bind (below? 256)

/-- An address of the fourth version. -/
def IPv4.parse? (cs : List Char) : Option IPv4 :=
  match (splitList '.' cs).mapM octet? with
  | some [a, b, c, d] => some ⟨a, b, c, d⟩
  | _ => none

/-- A group: one to four hexadecimal digits. -/
def group? (cs : List Char) : Option (Fin 65536) :=
  if 4 < cs.length then none else (numeral? 16 cs).bind (below? 65536)

/-- Groups with colons between them; nothing at all is no group. -/
def groups? (cs : List Char) : Option (List (Fin 65536)) :=
  if cs.isEmpty then some [] else (splitList ':' cs).mapM group?

/-- Groups of which the last two may be written as octets. -/
def tail? (cs : List Char) : Option (List (Fin 65536)) :=
  match groups? cs with
  | some groups => some groups
  | none =>
    let fields := splitList ':' cs
    match fields.dropLast.mapM group?, IPv4.parse? (fields.getLastD []) with
    | some front, some inner => some (front ++ inner.groups)
    | _, _ => none

/-- The text before and after the first double colon. -/
def splitDouble : List Char → Option (List Char × List Char)
  | [] => none
  | c :: rest =>
    match c, rest with
    | ':', ':' :: after => some ([], after)
    | _, _ => (splitDouble rest).map fun (front, back) => (c :: front, back)

/-- Eight groups as an address. -/
def IPv6.ofGroups? (groups : List (Fin 65536)) : Option IPv6 :=
  if h : groups.length = 8 then some ⟨groups, h⟩ else none

/-- **An address of the sixth version.** The double colon stands for one group of
zeros at least. -/
def IPv6.parse? (cs : List Char) : Option IPv6 :=
  match splitDouble cs with
  | none => (tail? cs).bind ofGroups?
  | some (front, back) =>
    match groups? front, tail? back with
    | some head, some tail =>
      if 7 < head.length + tail.length then none
      else ofGroups? (head ++ List.replicate (8 - head.length - tail.length) 0 ++ tail)
    | _, _ => none

/-- **An address of either version.** -/
def IpAddress.parse? (s : String) : Option IpAddress :=
  match IPv4.parse? s.toList with
  | some address => some (v4 address)
  | none => (IPv6.parse? s.toList).map v6

/-- A port: a decimal number of sixteen bits. -/
def port? (cs : List Char) : Option (Fin 65536) := (numeral? 10 cs).bind (below? 65536)

/-- The text before and after the last occurrence of a character. -/
def splitLast (sep : Char) (cs : List Char) : Option (List Char × List Char) :=
  let back := cs.reverse.takeWhile (· != sep)
  if back.length = cs.length then none
  else some (cs.take (cs.length - back.length - 1), back.reverse)

/-- What stands between square brackets: an address and perhaps a zone. -/
def zoned? (cs : List Char) : Option (IPv6 × Fin 4294967296) :=
  match splitList '%' cs with
  | [address] => (IPv6.parse? address).map (·, 0)
  | [address, zone] =>
    match IPv6.parse? address, (numeral? 10 zone).bind (below? 4294967296) with
    | some a, some z => some (a, z)
    | _, _ => none
  | _ => none

/-- **An address with a port.** -/
def SocketAddress.parse? (s : String) : Option SocketAddress :=
  match splitLast ':' s.toList with
  | none => none
  | some (host, port) =>
    match port? port with
    | none => none
    | some port =>
      match host with
      | '[' :: inner =>
        if inner.getLast? = some ']' then
          (zoned? inner.dropLast).map fun (address, zone) => v6 address zone port
        else none
      | _ => (IPv4.parse? host).map fun address => v4 address port

/-! ## One spelling for each address -/

/-- **The spelling under which an address is compared:** the written form of the
address that is meant, and for a text that is no address the text itself, without
blank ends. -/
def normalizeAddress (raw : String) : String :=
  let text := trim raw
  match IpAddress.parse? text with
  | some address => address.canonical.text
  | none => text

end Admission
