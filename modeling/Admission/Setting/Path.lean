/-
Paths into a tree of settings: names with points between them, and positions in
square brackets. Whatever a path leads through comes into being on the way, and
what is of another shape gives way.
-/
import Admission.Setting
import Admission.Text.Fields
import Admission.Text.Numeral

set_option autoImplicit false

namespace Admission

/-- **A path.** A position may be counted from the end. -/
inductive SettingPath
  | field (name : String)
  | child (parent : SettingPath) (name : String)
  | item (parent : SettingPath) (position : Int)
  deriving DecidableEq

namespace SettingPath

/-! ## Reading -/

/-- A character of a name in a path. -/
def isNameChar (c : Char) : Bool := c.isAlphanum || c == ' ' || c == '_' || c == '-'

/-- A position between brackets, with blanks around it and perhaps a minus sign. -/
def position? (cs : List Char) : Option (Int × List Char) :=
  let body := cs.takeWhile (· != ']')
  let isEdge (c : Char) : Bool := c == ' ' || c == '\t'
  let trimmed := ((body.dropWhile isEdge).reverse.dropWhile isEdge).reverse
  if body.length = cs.length ∨ trimmed.head? = some '+' then none
  else (Text.int64? 10 trimmed).map (·, cs.drop (body.length + 1))

/-- The rest of a path after its beginning. -/
def parseFrom? : (fuel : Nat) → SettingPath → List Char → Option SettingPath
  | _, path, [] => some path
  | 0, _, _ => none
  | fuel + 1, path, '.' :: rest =>
    let name := rest.takeWhile isNameChar
    if name.isEmpty then none
    else parseFrom? fuel (.child path (String.ofList name)) (rest.drop name.length)
  | fuel + 1, path, '[' :: rest =>
    match position? rest with
    | some (position, rest) => parseFrom? fuel (.item path position) rest
    | none => none
  | _, _, _ => none

/-- **Reading a path.** A text that is no path is a single name. -/
def parse (text : String) : SettingPath :=
  let cs := text.toList
  let name := cs.takeWhile isNameChar
  if name.isEmpty then .field text
  else (parseFrom? cs.length (.field (String.ofList name)) (cs.drop name.length)).getD (.field text)

/-! ## Setting -/

/-- The index of a position in a list of a length. -/
def index (position : Int) (length : Nat) : Nat :=
  if 0 ≤ position then position.toNat else length - position.natAbs

/-- A tree with the value at a path changed. -/
def alter (f : Setting → Setting) : SettingPath → Setting → Setting
  | field name, root => .table (Setting.alterField name f root.fields)
  | child parent name, root =>
    alter (fun v => .table (Setting.alterField name f v.fields)) parent root
  | item parent position, root =>
    alter (fun v => .list (Setting.alterItem f (index position v.items.length) v.items)) parent root

/-- **A tree with a value laid over the place of a path.** -/
def set (path : SettingPath) (value root : Setting) : Setting :=
  match path with
  | field name => Setting.overlay name value root
  | child parent name => alter (Setting.overlay name value) parent root
  | item parent position =>
    alter (fun v => .list (Setting.alterItem (fun _ => value) (index position v.items.length) v.items))
      parent root

end SettingPath

end Admission
