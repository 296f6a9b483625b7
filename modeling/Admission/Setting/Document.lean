/-
YAML documents as trees of settings. The fields of a table go by the names that their
keys stand for; of several fields of one name the last counts. A number has to be one
that can be set.
-/
import Admission.Setting
import Admission.Yaml12.Value

set_option autoImplicit false

namespace Admission.Setting

mutual

/-- **The setting that a value is.** A fraction that is spelled like none of ours cannot
be set; what does not fit its tag is nothing. -/
def ofValue? : Yaml12.Value → Option Setting
  | .null | .misfit => some nil
  | .flag b => some (flag b)
  | .whole n => some (whole n)
  | .real spelling => (Binary64.parse? spelling.toList).map real
  | .text s => some (text s)
  | .list items => (ofValues? items).map list
  | .table fields => (ofFields? fields).map fun fields =>
      table (fields.foldl (fun fields (name, v) => alterField name (fun _ => v) fields) [])

/-- The settings that values are. -/
def ofValues? : List Yaml12.Value → Option (List Setting)
  | [] => some []
  | v :: rest =>
    match ofValue? v with
    | none => none
    | some v => (ofValues? rest).map (v :: ·)

/-- The settings that fields hold, with their names. -/
def ofFields? : List (Yaml12.Key × Yaml12.Value) → Option (List (String × Setting))
  | [] => some []
  | (key, v) :: rest =>
    match ofValue? v with
    | none => none
    | some v => (ofFields? rest).map ((key.name, v) :: ·)

end

/-- **The settings in a text.** A text without a document holds none; one whose document
is no table is refused. -/
def ofYaml? (source : String) : Option (List (String × Setting)) := do
  match ← Yaml12.value? source with
  | none => return []
  | some value =>
    match ← ofValue? value with
    | table fields => return fields
    | _ => none

end Admission.Setting
