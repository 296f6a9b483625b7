/-
JSON taken strictly. Every value has the type that it shows: a number is not a
text, a count is written without a point, and `null` stands only for what may be
absent. A record is an object, or an array of its fields in their order, cut short
where the rest have defaults; a variant is its name, alone or as the only field of
an object with nothing in it.
-/
import Admission.Json
import Admission.Reading

set_option autoImplicit false

namespace Admission.Json

/-- A count that fits a word. -/
def count? : Json → Option Nat
  | int n => if 0 ≤ n ∧ n.toNat ≤ Word.max then some n.toNat else none
  | _ => none

/-- A whole number of 32 bits. -/
def int32? : Json → Option Int
  | int n => if Reading.fitsInt32 n then some n else none
  | _ => none

/-- The fields of a record that are written. -/
def record? (names : List String) : Json → Option (List (String × Json))
  | object fields => some (names.filterMap fun name => (field? name fields).map (name, ·))
  | array items => if items.length ≤ names.length then some (names.zip items) else none
  | _ => none

/-- The name of a variant. -/
def variant? (names : List String) : Json → Option String
  | string name => if name ∈ names then some name else none
  | object [(name, null)] => if name ∈ names then some name else none
  | _ => none

/-- **JSON as a notation for settings.** -/
def reading : Reading Option Json where
  text
    | string s => some s
    | _ => none
  flag
    | bool b => some b
    | _ => none
  count := count?
  int32 := int32?
  presence
    | null => some none
    | v => some (some v)
  items
    | array items => some items
    | _ => none
  record := record?
  variant := variant?

theorem count?_nat {n : Nat} (h : n ≤ Word.max) : count? (nat n) = some n := by
  simp [count?, nat, h]

theorem int32?_int {n : Int} (h : Reading.fitsInt32 n = true) : int32? (int n) = some n := by
  simp [int32?, h]

end Admission.Json
