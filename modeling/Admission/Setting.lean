/-
Settings in layers: a tree that a file begins and that the environment is laid
over. Where both have a table, the tables are merged field by field; otherwise
what comes later replaces what was there. A field is laid over under its name in
small letters; what stands inside a list keeps the names it has.
-/
import Admission.Number.Binary64
import Admission.Text.Ascii

set_option autoImplicit false

namespace Admission

/-- **A tree of settings.** A table has each name once. -/
inductive Setting
  | nil
  | flag (value : Bool)
  /-- a whole number of 64 bits with a sign -/
  | whole (value : Int)
  | real (value : Binary64)
  | text (value : String)
  | list (items : List Setting)
  | table (fields : List (String × Setting))

namespace Setting

instance : Inhabited Setting := ⟨nil⟩

/-- The fields of a table; none of anything else. -/
def fields : Setting → List (String × Setting)
  | table fields => fields
  | _ => []

/-- The items of a list; none of anything else. -/
def items : Setting → List Setting
  | list items => items
  | _ => []

/-- A table with one field changed; a field that is not there is `nil` before. -/
def alterField (name : String) (f : Setting → Setting) :
    List (String × Setting) → List (String × Setting)
  | [] => [(name, f nil)]
  | (n, v) :: rest => if n = name then (n, f v) :: rest else (n, v) :: alterField name f rest

/-- A list with one item changed; it is made long enough. -/
def alterItem (f : Setting → Setting) : (index : Nat) → List Setting → List Setting
  | 0, [] => [f nil]
  | 0, v :: rest => f v :: rest
  | index + 1, [] => nil :: alterItem f index []
  | index + 1, v :: rest => v :: alterItem f index rest

mutual

/-- **A tree with a value laid over one of its fields.** A tree that is no table
becomes one. -/
def overlay (name : String) : (value : Setting) → Setting → Setting
  | table incoming, root =>
    let old := (root.fields.lookup (Text.fold name)).getD (table [])
    table (alterField (Text.fold name) (fun _ => overlayAll incoming old) root.fields)
  | value, root => table (alterField (Text.fold name) (fun _ => value) root.fields)

/-- A tree with several values laid over its fields. -/
def overlayAll : List (String × Setting) → Setting → Setting
  | [], root => root
  | (name, value) :: rest, root => overlayAll rest (overlay name value root)

end

end Setting

end Admission
