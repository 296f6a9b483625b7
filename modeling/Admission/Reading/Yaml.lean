/-
YAML as a notation for settings. A scalar is whatever its place asks for: every
scalar is a text, and a plain one is a number, a flag or an absent value if it is
spelled like one. A record is a mapping; an empty plain scalar, which is also what
stands where nothing is written, is an empty record or an empty list.

An alias is followed to the node it stands for. How often that happens is counted,
since a short text can ask for it without end (`Following`).
-/
import Admission.Reading
import Admission.Text.Numeral
import Admission.Yaml.Document

set_option autoImplicit false

namespace Admission.Yaml

/-! ## Spellings -/

/-- A number in base sixteen, eight or two. -/
def radixNumber? : List Char → Option Nat
  | '0' :: 'x' :: rest => Text.numeral? 16 rest
  | '0' :: 'o' :: rest => Text.numeral? 8 rest
  | '0' :: 'b' :: rest => Text.numeral? 2 rest
  | _ => none

/-- A decimal number. Digits after a leading zero are a text. -/
def decimalNumber? (cs : List Char) : Option Nat :=
  if 1 < cs.length ∧ cs.head? = some '0' then none else Text.numeral? 10 cs

/-- A number without a sign. -/
def number? (cs : List Char) : Option Nat := radixNumber? cs <|> decimalNumber? cs

/-- **A count,** perhaps with a plus sign. -/
def unsigned? : List Char → Option Nat
  | '+' :: rest => number? rest
  | cs => number? cs

/-- **A whole number,** perhaps with a sign. -/
def signed? : List Char → Option Int
  | '+' :: rest => (number? rest).map Int.ofNat
  | '-' :: rest => (number? rest).map fun n => -Int.ofNat n
  | cs => (number? cs).map Int.ofNat

/-- The spellings of a flag. -/
def flags : List (String × Bool) :=
  [("true", true), ("True", true), ("TRUE", true), ("false", false), ("False", false),
    ("FALSE", false)]

/-- The spellings of an absent value, apart from nothing at all. -/
def isNull (text : String) : Bool := text ∈ ["null", "Null", "NULL", "~"]

/-! ## Nodes -/

namespace Node

/-- The text of a scalar. -/
def text? : Node → Option String
  | scalar _ text _ => some text
  | _ => none

/-- Whether a node is an empty plain scalar. -/
def isEmpty : Node → Bool
  | scalar _ text style => text == "" && style == .plain
  | _ => false

/-- The spelling of a number or a flag: a plain scalar, or a literal block that is
tagged as one. -/
def spelling? (tag : String) : Node → Option String
  | scalar properties text style =>
    if style = .plain ∨ (style = .literal ∧ properties.tag = some (commonTag tag)) then some text
    else none
  | _ => none

/-- A flag. -/
def flag? (node : Node) : Option Bool :=
  (node.spelling? "bool").bind fun text => flags.lookup text

/-- A count that fits a word. -/
def count? (node : Node) : Option Nat :=
  (node.spelling? "int").bind fun text => (unsigned? text.toList).filter (· ≤ Word.max)

/-- A whole number of 32 bits. -/
def int32? (node : Node) : Option Int :=
  (node.spelling? "int").bind fun text => (signed? text.toList).filter (Reading.fitsInt32 ·)

/-- The node, or `some none` if it is an absent value. One that is tagged as absent
has to be spelled so. -/
def presence? (node : Node) : Option (Option Node) :=
  match node with
  | scalar properties text .plain =>
    match properties.tag with
    | none => if text = "" ∨ isNull text then some none else some (some node)
    | some tag =>
      if tag ≠ commonTag "null" then some (some node)
      else if isNull text then some none
      else none
  | _ => some (some node)

/-- The items of a sequence. -/
def items? : Node → Option (List Node)
  | sequence _ items => some items
  | node => if node.isEmpty then some [] else none

/-- The name of a variant: a text, or a tag with nothing after it. -/
def variant? (names : List String) : Node → Option String
  | scalar properties text style =>
    match properties.tag.map String.toList with
    | some ('!' :: name) =>
      if style = .plain ∧ (text = "" ∨ isNull text) then
        if String.ofList name ∈ names then some (String.ofList name) else none
      else none
    | _ => if text ∈ names then some text else none
  | _ => none

end Node

/-! ## Aliases -/

/-- **Reading that counts the aliases it follows.** -/
abbrev Following := StateT Nat Option

namespace Following

/-- The node that is meant: an alias means the node with its anchor. -/
def target (anchors : List (Nat × Node)) : Node → Following Node
  | .reference anchor => fun followed => (anchors.lookup anchor.number).map (·, followed + 1)
  | node => pure node

/-- What a node is read as, once it is found. -/
def readAs {α : Type} (anchors : List (Nat × Node)) (read : Node → Option α) (node : Node) :
    Following α := do
  Reading.accept (read (← target anchors node))

/-- The fields of a mapping by name; every key has to be a scalar. -/
def fieldsByName (anchors : List (Nat × Node)) :
    List (Node × Node) → Following (List (String × Node))
  | [] => pure []
  | (key, value) :: rest => do
    let name ← readAs anchors Node.text? key
    let others ← fieldsByName anchors rest
    return (name, value) :: others

/-- The fields of a record. Of the fields asked for none may be written twice. -/
def record (anchors : List (Nat × Node)) (names : List String) (node : Node) :
    Following (List (String × Node)) := do
  match ← target anchors node with
  | .mapping _ fields =>
    let known := (← fieldsByName anchors fields).filter fun field => field.1 ∈ names
    if (known.map (·.1)).Nodup then pure known else throw ()
  | node => if node.isEmpty then pure [] else throw ()

/-- How many aliases are followed for each mark in a document; more are refused. -/
def perMark : Nat := 100

end Following

/-- **YAML as a notation for settings,** where these are the anchored nodes. -/
def reading (anchors : List (Nat × Node)) : Reading Following Node where
  text := Following.readAs anchors Node.text?
  flag := Following.readAs anchors Node.flag?
  count := Following.readAs anchors Node.count?
  int32 := Following.readAs anchors Node.int32?
  presence := Following.readAs anchors Node.presence?
  items := Following.readAs anchors Node.items?
  record := Following.record anchors
  variant names := Following.readAs anchors (Node.variant? names)

/-- **What a text says,** read as a setting. A text without a document says nothing
at all. -/
def decode? {α : Type} (read : Reading Following Node → Node → Following α) (text : String) :
    Option α :=
  match Dialect.checked.document? text with
  | none => none
  | some document =>
    let root := document.getD .empty
    match (read (reading root.anchors) root).run 0 with
    | some (value, followed) =>
      if followed ≤ Following.perMark * root.marks then some value else none
    | none => none

end Admission.Yaml
