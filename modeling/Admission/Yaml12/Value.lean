/-
What a YAML document of version 1.2 means. A plain scalar has a type, which its
spelling decides or a tag of a common type; every other scalar is a text. An alias
means what its anchor has come to mean by then; an anchor whose node is not finished
means nothing yet (`Value.misfit`).
-/
import Admission.Number.Decimal
import Admission.Yaml.Document
import Admission.Yaml12.Tokens

set_option autoImplicit false

namespace Admission.Yaml12

open Yaml (Dialect Node Properties Style Token commonTag)

/-! ## Documents -/

/-- The handles that the directives in front of a document declare. A version may
stand there once; a directive forgets the handles of those before it. -/
def directives? : (version : Bool) → (handles : List (String × String)) → List Token →
    Option (List (String × String) × List Token)
  | false, _, .versionDirective .. :: rest => directives? true [] rest
  | true, _, .versionDirective .. :: _ => none
  | version, _, .tagDirective handle stem :: rest => directives? version [(handle, stem)] rest
  | _, handles, tokens => some (handles, tokens)

/-- What a handle stands for. A handle with a name has to be declared; the others stand
for themselves if they are not, apart from the common one. -/
def declaredStem? (handles : List (String × String)) (handle : String) : Option String :=
  match handles.lookup handle with
  | some stem => some stem
  | none =>
    if handle = "!!" then some (commonTag "")
    else if 2 ≤ handle.length then none
    else some handle

/-- The tag that a handle and a suffix write. Only a handle that stands for exactly the
stem of the common types gives one of these; every other tag is kept apart from them by
an exclamation mark. -/
def fullTag? (handles : List (String × String)) (handle suffix : String) : Option String :=
  (declaredStem? handles handle).map fun stem =>
    if stem = commonTag "" then stem ++ suffix else "!" ++ suffix

/-- **YAML of version 1.2.** Every anchor has a number of its own. -/
def dialect : Dialect where
  tokens? := tokens?
  endsInFront := true
  directives? := directives? false []
  tag? := fullTag?
  number tokens _ := tokens

/-! ## Values -/

/-- What may be the name of a field. A fraction goes by its spelling. -/
inductive Key
  | flag (value : Bool)
  | whole (value : Int)
  | real (spelling : String)
  | text (value : String)
  deriving DecidableEq

/-- The name that a key stands for. -/
def Key.name : Key → String
  | flag b => if b then "true" else "false"
  | whole n => toString n
  | real spelling => spelling
  | text s => s

/-- **A value.** -/
inductive Value
  | null
  /-- what does not fit its tag, or is not known yet -/
  | misfit
  | flag (value : Bool)
  | whole (value : Int)
  /-- a fraction, an infinity or what is no number -/
  | real (spelling : String)
  | text (value : String)
  | list (items : List Value)
  | table (fields : List (Key × Value))

/-! ## Scalars -/

/-- The spellings of infinities and of what is no number that begin with a point. -/
def dottedNumbers : List String :=
  [".inf", ".Inf", ".INF", "+.inf", "+.Inf", "+.INF", "-.inf", "-.Inf", "-.INF", ".nan", ".NAN"]

/-- Whether a text is spelled like a number with a fraction. -/
def isReal (s : String) : Bool := s ∈ dottedNumbers || (Binary64.parse? s.toList).isSome

/-- A whole number by its spelling, in base ten, sixteen or eight. -/
def whole? (s : String) : Option Int :=
  match s.toList with
  | '0' :: 'x' :: rest => Text.int64? 16 rest
  | '0' :: 'o' :: rest => Text.int64? 8 rest
  | '+' :: rest => Text.int64? 10 rest
  | cs => Text.int64? 10 cs

/-- A flag by its spelling. -/
def flag? (s : String) : Option Bool :=
  if s = "true" then some true else if s = "false" then some false else none

namespace Value

/-- **What a plain scalar without a tag means.** -/
def ofPlain (s : String) : Value :=
  match whole? s with
  | some n => whole n
  | none =>
    if s = "" ∨ s = "~" ∨ s = "null" then null
    else match flag? s with
      | some b => flag b
      | none => if isReal s then real s else text s

/-- What a plain scalar means that is tagged with a common type. -/
def ofTagged (type s : String) : Value :=
  if type = "bool" then ((flag? s).map flag).getD misfit
  else if type = "int" then ((Text.int64? 10 s.toList).map whole).getD misfit
  else if type = "float" then if isReal s then real s else misfit
  else if type = "null" then if s = "~" ∨ s = "null" then null else misfit
  else text s

/-- The common types that a tag may name. -/
def commonTypes : List String := ["bool", "int", "float", "null"]

/-- **What a scalar means.** -/
def ofScalar (tag : Option String) (s : String) (style : Style) : Value :=
  if style ≠ .plain then text s
  else match tag with
    | none => ofPlain s
    | some tag =>
      match commonTypes.find? fun type => commonTag type = tag with
      | some type => ofTagged type s
      | none => text s

/-! ## Collections -/

/-- The key that a value is, if it can be one. -/
def key? : Value → Option Key
  | flag b => some (.flag b)
  | whole n => some (.whole n)
  | real spelling => some (.real spelling)
  | text s => some (.text s)
  | _ => none

/-- The fields that values in the order of a mapping make up, after those of `fields`
and with `pending` as the next key. A misfit is no key and is passed by, so that what
comes after it is taken as the key. No key may be there twice. -/
def fields? (pending : Option Value) (fields : List (Key × Value)) :
    List Value → Option (List (Key × Value))
  | [] => some fields
  | v :: rest =>
    match pending with
    | none =>
      match v with
      | misfit => fields? none fields rest
      | v => fields? (some v) fields rest
    | some key =>
      match key.key? with
      | none => none
      | some key =>
        if (fields.lookup key).isSome then none else fields? none (fields ++ [(key, v)]) rest

/-! ## Nodes -/

/-- What the anchors mean that are finished, by their numbers. -/
abbrev Meanings := List (Nat × Value)

/-- The meanings with that of an anchor, whose node is finished. -/
def Meanings.finish (m : Meanings) (properties : Properties) (value : Value) : Meanings :=
  match properties.anchor with
  | some anchor => (anchor.number, value) :: m
  | none => m

mutual

/-- **What a node means,** and what the anchors mean after it. -/
def ofNode? (m : Meanings) : Node → Option (Value × Meanings)
  | .reference anchor => some ((m.lookup anchor.number).getD misfit, m)
  | .scalar properties s style =>
    let value := ofScalar properties.tag s style
    some (value, m.finish properties value)
  | .sequence properties items =>
    match ofItems? m items with
    | none => none
    | some (items, m) => some (list items, m.finish properties (list items))
  | .mapping properties fields =>
    match ofFields? m fields with
    | none => none
    | some (values, m) =>
      (fields? none [] values).map fun fields => (table fields, m.finish properties (table fields))

/-- What the items of a sequence mean. -/
def ofItems? (m : Meanings) : List Node → Option (List Value × Meanings)
  | [] => some ([], m)
  | item :: rest =>
    match ofNode? m item with
    | none => none
    | some (value, m) => (ofItems? m rest).map fun (values, m) => (value :: values, m)

/-- What the keys and values of a mapping mean, in their order. -/
def ofFields? (m : Meanings) : List (Node × Node) → Option (List Value × Meanings)
  | [] => some ([], m)
  | (key, value) :: rest =>
    match ofNode? m key with
    | none => none
    | some (key, m) =>
      match ofNode? m value with
      | none => none
      | some (value, m) => (ofFields? m rest).map fun (values, m) => (key :: value :: values, m)

end

end Value

/-- **What a text means,** or `some none` if it holds no document. -/
def value? (text : String) : Option (Option Value) := do
  match ← dialect.document? text with
  | none => return none
  | some root =>
    let (value, _) ← Value.ofNode? [] root
    return some value

end Admission.Yaml12
