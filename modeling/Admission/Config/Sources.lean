/-
Where configurations come from: a YAML text, or a file with the environment laid
over it.

A variable of the environment is meant for us if its name begins with
`TURNSTILE__`, in whatever case; the rest of the name is the path of a setting, in
small letters and with `__` for each point. Its value is a flag, a number or a
text, whichever it is spelled like first.
-/
import Admission.Config.Document
import Admission.Config.Validation
import Admission.Reading.Setting
import Admission.Reading.Yaml
import Admission.Setting.Document
import Admission.Setting.Path

set_option autoImplicit false

namespace Admission

/-! ## YAML texts -/

/-- **A configuration from a YAML text,** examined. -/
def Config.ofYaml (text : String) : Except Error Config :=
  match Yaml.decode? Config.read text with
  | none => .error .document
  | some config => (fun _ => config) <$> config.validate

/-- A document of rules from a YAML text. -/
def RulesDocument.ofYaml (text : String) : Except Error RulesDocument :=
  match Yaml.decode? RulesDocument.read text with
  | none => .error .document
  | some document => .ok document

/-- **A rule set from a YAML text.** -/
def RuleSet.ofYaml (text : String) : Except Error RuleSet := do
  let document ← RulesDocument.ofYaml text
  RuleSet.build document.rules document.defaults

/-! ## The environment -/

/-- What the names of our variables begin with, in small letters. -/
def variableStem : List Char := "turnstile__".toList

/-- A name with a point for each double underscore. -/
def dotted : List Char → List Char
  | '_' :: '_' :: rest => '.' :: dotted rest
  | c :: rest => c :: dotted rest
  | [] => []

/-- The path of a variable's setting, if the variable is meant for us. -/
def variablePath? (name : String) : Option SettingPath :=
  let small := (Text.fold name).toList
  if variableStem.isPrefixOf small then
    some (.parse (String.ofList (dotted (small.drop variableStem.length))))
  else none

/-- The value of a variable. -/
def variableValue (value : String) : Setting :=
  if Text.lower value = "true" then .flag true
  else if Text.lower value = "false" then .flag false
  else match Text.int64? 10 value.toList with
    | some n => .whole n
    | none =>
      match Binary64.parse? value.toList with
      | some x => .real x
      | none => .text value

/-- A tree with the settings of the environment laid over it. -/
def Setting.overlayEnvironment (environment : List (String × String)) (root : Setting) : Setting :=
  environment.foldl (fun root entry =>
    match variablePath? entry.1 with
    | some path => path.set (variableValue entry.2) root
    | none => root) root

/-! ## Layers -/

/-- The error of layers that make no configuration. -/
def badLayers : Error := .configuration "the settings do not fit together"

/-- The settings of a file, of which the name of each stands for a path. -/
def Setting.overlayFile (fields : List (String × Setting)) (root : Setting) : Setting :=
  fields.foldl (fun root field => (SettingPath.parse field.1).set field.2 root) root

/-- **A configuration from a file, if there is one, and the environment,** which
wins. -/
def Config.load (file : Option String) (environment : List (String × String)) :
    Except Error Config := do
  let base ← match file with
    | none => pure (Setting.table [])
    | some text =>
      match Setting.ofYaml? text with
      | some fields => pure (Setting.overlayFile fields (.table []))
      | none => throw badLayers
  match Config.read Setting.reading (base.overlayEnvironment environment) with
  | none => throw badLayers
  | some config =>
    config.validate
    return config

end Admission
