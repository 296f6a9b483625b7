/-
Header fields: their names, and what can be asked of a list of them.

A name is a token of at most 65535 characters, and its letters have no case. A
name may occur more than once, and its values then keep their order.
-/
import Admission.Text.Ascii
import Admission.Text.Blank

set_option autoImplicit false

namespace Admission.Http

/-! ## Names -/

/-- A character of header names. -/
def isTokenChar (c : Char) : Bool :=
  c.isAlphanum || c ∈ ['!', '#', '$', '%', '&', '\x27', '*', '+', '-', '.', '^', '_', '\x60', '|', '~']

/-- The longest name there is. -/
def maxNameLength : Nat := 65535

/-- **The name of a header,** in small letters. -/
structure HeaderName where
  text : String
  deriving DecidableEq

/-- **Reading a name.** -/
def HeaderName.parse? (raw : String) : Option HeaderName :=
  let cs := raw.toList
  if !cs.isEmpty && cs.length ≤ maxNameLength && cs.all isTokenChar then some ⟨Text.lower raw⟩
  else none

/-! ## Fields -/

/-- **Header fields** in order, names in small letters. -/
structure Headers where
  fields : List (String × String)
  deriving DecidableEq

/-- Whether a value can be taken as text: it holds visible ASCII, spaces and tabs
and nothing else. -/
def isReadable (value : String) : Bool :=
  value.toList.all fun c => c == '\t' || (0x20 ≤ c.toNat && c.toNat ≤ 0x7E)

namespace Headers

/-- No fields. -/
def empty : Headers := ⟨[]⟩

/-- Fields whose names may be written in any case. -/
def ofList (fields : List (String × String)) : Headers :=
  ⟨fields.map fun (name, value) => (Text.lower name, value)⟩

/-- The first value of a name. -/
def first? (h : Headers) (name : HeaderName) : Option String := h.fields.lookup name.text

/-- **The fields with one name set:** every earlier value of it is gone. -/
def set (h : Headers) (name : HeaderName) (value : String) : Headers :=
  ⟨h.fields.filter (·.1 != name.text) ++ [(name.text, value)]⟩

/-- **What a header says:** its first value without blank ends, if that is text
and anything is left. -/
def saying? (h : Headers) (name : HeaderName) : Option String :=
  match h.first? name with
  | none => none
  | some value =>
    if !isReadable value then none
    else
      let trimmed := Text.trim value
      if trimmed = "" then none else some trimmed

/-- After a name is set, that is what its value is. -/
theorem first?_set (h : Headers) (name : HeaderName) (value : String) :
    (h.set name value).first? name = some value := by
  have absent : (h.fields.filter (·.1 != name.text)).lookup name.text = none := by
    rw [List.lookup_eq_none_iff]
    intro field member
    have := (List.mem_filter.1 member).2
    simp only [bne_iff_ne, ne_eq] at this
    simpa using fun e => this e.symm
  simp [set, first?, List.lookup_append, absent]

end Headers

end Admission.Http
