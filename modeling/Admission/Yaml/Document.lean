/-
Tokens put together to a document.

A document is a node, with directives in front if it begins with its mark. Where a
node may stand but none is written, there is an empty scalar. Every anchor gets a
number when its node begins; an alias stands for the number that its name has by
then.

Which tokens a text has, what directives mean and how anchors are numbered is not
the same everywhere: that is a `Dialect`. The one of this module is
`Dialect.checked`, which minds the versions and handles that are declared.
-/
import Admission.Yaml.Node
import Admission.Yaml.Tokens

set_option autoImplicit false

namespace Admission.Yaml

/-! ## Dialects -/

/-- **What differs between two ways to take YAML.** -/
structure Dialect where
  /-- the tokens of a text, ended by that of its end -/
  tokens? : String → Option (List Token)
  /-- whether marks of an end may stand in front of a document -/
  endsInFront : Bool
  /-- the handles that the directives in front of a document declare, and what
  follows them -/
  directives? : List Token → Option (List (String × String) × List Token)
  /-- the tag in full that a handle and a suffix write, where handles are declared -/
  tag? : List (String × String) → String → String → Option String
  /-- the number of an anchor, where so many tokens are left and so many names are
  known -/
  number : (tokens names : Nat) → Nat

/-! ## State -/

/-- **What is left of the tokens, and the names that are known.** -/
structure Composition where
  dialect : Dialect
  tokens : List Token
  /-- anchors by name, each name once -/
  anchors : List (String × Nat)
  /-- the handles of tags and what they stand for -/
  handles : List (String × String)

namespace Composition

/-- Without the first token. -/
def skip (s : Composition) : Composition := { s with tokens := s.tokens.drop 1 }

/-- Whether the next token is one of several. -/
def nextIn (s : Composition) (tokens : List Token) : Bool := s.tokens.head?.any (· ∈ tokens)

/-- Giving a number to an anchor. -/
def register (s : Composition) : Option String → Option Anchor × Composition
  | none => (none, s)
  | some name =>
    let number := s.dialect.number s.tokens.length s.anchors.length
    let others := s.anchors.filter (·.1 != name)
    (some ⟨name, number⟩, { s with anchors := (name, number) :: others })

/-- The anchor and the tag in front of a node, in either order. -/
def properties (s : Composition) : Option String × Option (String × String) × Composition :=
  match s.tokens with
  | .anchor name :: .tag handle suffix :: rest | .tag handle suffix :: .anchor name :: rest =>
    (some name, some (handle, suffix), { s with tokens := rest })
  | .anchor name :: rest => (some name, none, { s with tokens := rest })
  | .tag handle suffix :: rest => (none, some (handle, suffix), { s with tokens := rest })
  | _ => (none, none, s)

/-- A tag in full, if there is one. -/
def fullTag? (s : Composition) : Option (String × String) → Option (Option String)
  | none => some none
  | some (handle, suffix) => (s.dialect.tag? s.handles handle suffix).map some

/-! ## Nodes -/

/-- What a node goes on with once its properties are read. -/
inductive Content
  | scalar (text : String) (style : Style)
  | unindentedSequence
  | blockSequence
  | blockMapping
  | flowSequence
  | flowMapping
  | nothing

/-- The content that the next token begins. Collections that are written by
indentation are allowed in a `block` only; in a mapping's value, items may stand
without further indentation. -/
def content (block unindented : Bool) (s : Composition) : Content :=
  match s.tokens with
  | .scalar text style :: _ => .scalar text style
  | .flowSequenceStart :: _ => .flowSequence
  | .flowMappingStart :: _ => .flowMapping
  | .blockSequenceStart :: _ => if block then .blockSequence else .nothing
  | .blockMappingStart :: _ => if block then .blockMapping else .nothing
  | .blockEntry :: _ => if unindented then .unindentedSequence else .nothing
  | _ => .nothing

mutual

/-- **A node.** -/
def node? (fuel : Nat) (block unindented : Bool) (s : Composition) : Option (Node × Composition) :=
  match fuel with
  | 0 => none
  | fuel + 1 =>
    match s.tokens with
    | .reference name :: _ => (s.anchors.lookup name).map fun number => (.reference ⟨name, number⟩, s.skip)
    | _ =>
      let (name, written, s) := s.properties
      match s.fullTag? written with
      | none => none
      | some tag =>
        let (anchor, s') := s.register name
        match s.content block unindented with
        | .scalar text style => some (.scalar ⟨anchor, tag⟩ text style, s'.skip)
        | .unindentedSequence =>
          (unindentedItems? fuel s').map fun (items, s) => (.sequence ⟨anchor, tag⟩ items, s)
        | .blockSequence =>
          (blockItems? fuel s'.skip).map fun (items, s) => (.sequence ⟨anchor, tag⟩ items, s)
        | .blockMapping =>
          (blockFields? fuel s'.skip).map fun (fields, s) => (.mapping ⟨anchor, tag⟩ fields, s)
        | .flowSequence =>
          (flowItems? fuel true s'.skip).map fun (items, s) => (.sequence ⟨anchor, tag⟩ items, s)
        | .flowMapping =>
          (flowFields? fuel true s'.skip).map fun (fields, s) => (.mapping ⟨anchor, tag⟩ fields, s)
        | .nothing =>
          if name.isSome ∨ tag.isSome then some (.scalar ⟨anchor, tag⟩ "" .plain, s') else none

/-- A node, or nothing before one of certain tokens. -/
def nodeBefore? (fuel : Nat) (block unindented : Bool) (ends : List Token) (s : Composition) :
    Option (Node × Composition) :=
  match fuel with
  | 0 => none
  | fuel + 1 => if s.nextIn ends then some (.empty, s) else node? fuel block unindented s

/-- The value after a key, if its token is there. -/
def valueBefore? (fuel : Nat) (block : Bool) (ends : List Token) (s : Composition) :
    Option (Node × Composition) :=
  match fuel with
  | 0 => none
  | fuel + 1 =>
    if s.nextIn [.value] then nodeBefore? fuel block block ends s.skip else some (.empty, s)

/-- The items of an indented sequence, to its end. -/
def blockItems? (fuel : Nat) (s : Composition) : Option (List Node × Composition) :=
  match fuel with
  | 0 => none
  | fuel + 1 =>
    if s.nextIn [.blockEnd] then some ([], s.skip)
    else if s.nextIn [.blockEntry] then
      match nodeBefore? fuel true false [.blockEntry, .blockEnd] s.skip with
      | none => none
      | some (item, s) => (blockItems? fuel s).map fun (items, s) => (item :: items, s)
    else none

/-- The items of a sequence that is not indented; whatever is no item ends it. -/
def unindentedItems? (fuel : Nat) (s : Composition) : Option (List Node × Composition) :=
  match fuel with
  | 0 => none
  | fuel + 1 =>
    if s.nextIn [.blockEntry] then
      match nodeBefore? fuel true false [.blockEntry, .key, .value, .blockEnd] s.skip with
      | none => none
      | some (item, s) => (unindentedItems? fuel s).map fun (items, s) => (item :: items, s)
    else some ([], s)

/-- The fields of an indented mapping, to its end. A value without a key is refused. -/
def blockFields? (fuel : Nat) (s : Composition) : Option (List (Node × Node) × Composition) :=
  match fuel with
  | 0 => none
  | fuel + 1 =>
    if s.nextIn [.blockEnd] then some ([], s.skip)
    else if s.nextIn [.key] then
      match nodeBefore? fuel true true [.key, .value, .blockEnd] s.skip with
      | none => none
      | some (key, s) =>
        match valueBefore? fuel true [.key, .value, .blockEnd] s with
        | none => none
        | some (value, s) =>
          (blockFields? fuel s).map fun (fields, s) => ((key, value) :: fields, s)
    else none

/-- The items of a sequence in brackets, to the closing one. A single pair of key
and value counts as an item; it is a mapping of its own. -/
def flowItems? (fuel : Nat) (first : Bool) (s : Composition) : Option (List Node × Composition) :=
  match fuel with
  | 0 => none
  | fuel + 1 =>
    if s.nextIn [.flowSequenceEnd] then some ([], s.skip)
    else if !first && !s.nextIn [.flowEntry] then none
    else
      let s := if first then s else s.skip
      if s.nextIn [.flowSequenceEnd] then some ([], s.skip)
      else
        let item? :=
          if s.nextIn [.key] then flowPair? fuel s.skip else node? fuel false false s
        match item? with
        | none => none
        | some (item, s) => (flowItems? fuel false s).map fun (items, s) => (item :: items, s)

/-- A single pair inside a sequence. If there is no key, the token in its place is
left out. -/
def flowPair? (fuel : Nat) (s : Composition) : Option (Node × Composition) :=
  match fuel with
  | 0 => none
  | fuel + 1 =>
    let key? :=
      if s.nextIn [.value, .flowEntry, .flowSequenceEnd] then some (.empty, s.skip)
      else node? fuel false false s
    match key? with
    | none => none
    | some (key, s) =>
      (valueBefore? fuel false [.flowEntry, .flowSequenceEnd] s).map fun (value, s) =>
        (.mapping ⟨none, none⟩ [(key, value)], s)

/-- The fields of a mapping in brackets, to the closing one. A lone key has no
value. -/
def flowFields? (fuel : Nat) (first : Bool) (s : Composition) :
    Option (List (Node × Node) × Composition) :=
  match fuel with
  | 0 => none
  | fuel + 1 =>
    if s.nextIn [.flowMappingEnd] then some ([], s.skip)
    else if !first && !s.nextIn [.flowEntry] then none
    else
      let s := if first then s else s.skip
      if s.nextIn [.flowMappingEnd] then some ([], s.skip)
      else
        let field? :=
          if s.nextIn [.key] then
            match nodeBefore? fuel false false [.value, .flowEntry, .flowMappingEnd] s.skip with
            | none => none
            | some (key, s) =>
              (valueBefore? fuel false [.flowEntry, .flowMappingEnd] s).map fun (value, s) =>
                ((key, value), s)
          else (node? fuel false false s).map fun (key, s) => ((key, .empty), s)
        match field? with
        | none => none
        | some (field, s) =>
          (flowFields? fuel false s).map fun (fields, s) => (field :: fields, s)

end

/-! ## Documents -/

/-- Whether a token ends the content of a document. -/
def endsContent : Token → Bool
  | .versionDirective .. | .tagDirective .. | .documentStart | .documentEnd | .streamEnd => true
  | _ => false

/-- The node of a document and the tokens after it. -/
def content? (dialect : Dialect) (handles : List (String × String)) (tokens : List Token) :
    Option (Node × List Token) :=
  (node? (4 * tokens.length + 4) true false ⟨dialect, tokens, [], handles⟩).map fun (node, s) =>
    (node, s.tokens)

/-- The first document and the tokens after it. -/
def document? (dialect : Dialect) (tokens : List Token) : Option (Node × List Token) :=
  match dialect.directives? tokens with
  | none => none
  | some (handles, rest) =>
    match rest with
    | .documentStart :: rest =>
      if rest.head?.all endsContent then some (.empty, rest) else content? dialect handles rest
    | _ => if rest.length = tokens.length then content? dialect handles rest else none

end Composition

/-- **The document of a text,** or `some none` if it holds none. A second document
is refused. -/
def Dialect.document? (dialect : Dialect) (text : String) : Option (Option Node) := do
  let tokens ← dialect.tokens? text
  let tokens := if dialect.endsInFront then tokens.dropWhile (· == .documentEnd) else tokens
  if tokens = [.streamEnd] then return none
  let (root, rest) ← Composition.document? dialect tokens
  if rest.dropWhile (· == .documentEnd) = [.streamEnd] then return some root else none

/-! ## The checked dialect -/

/-- The handles that every document knows. -/
def commonHandles : List (String × String) := [("!", "!"), ("!!", commonTag "")]

/-- The directives in front of a document, checked: one version, which has to be 1.1
or 1.2, and handles, each of them once. -/
def checkedDirectives? : (version : Bool) → (handles : List (String × String)) → List Token →
    Option (List (String × String) × List Token)
  | false, handles, .versionDirective major minor :: rest =>
    if major = 1 ∧ (minor = 1 ∨ minor = 2) then checkedDirectives? true handles rest else none
  | true, _, .versionDirective .. :: _ => none
  | version, handles, .tagDirective handle stem :: rest =>
    if (handles.lookup handle).isSome then none
    else checkedDirectives? version (handles ++ [(handle, stem)]) rest
  | _, handles, tokens => some (handles ++ commonHandles, tokens)

/-- **YAML whose directives are checked.** A handle that nobody declared is an error,
and a name of an anchor that is used again does not count twice. -/
def Dialect.checked : Dialect where
  tokens? := Token.ofText?
  endsInFront := false
  directives? := checkedDirectives? false []
  tag? handles handle suffix :=
    if handle = "" then some suffix else (handles.lookup handle).map (· ++ suffix)
  number _ names := names

end Admission.Yaml
