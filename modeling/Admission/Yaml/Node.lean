/-
What a YAML text says: a tree of scalars, sequences and mappings. A node may be
anchored and then stand in other places as an alias, so that the whole is a tree
with references into itself (`Node.anchors`).
-/
import Admission.Yaml.Token

set_option autoImplicit false

namespace Admission.Yaml

/-- An anchor: its name, and the number that tells it from another of that name. -/
structure Anchor where
  name : String
  number : Nat
  deriving DecidableEq

/-- What is written in front of a node: its anchor, and its tag in full. -/
structure Properties where
  anchor : Option Anchor
  tag : Option String
  deriving DecidableEq

/-- **A node.** -/
inductive Node
  | scalar (properties : Properties) (text : String) (style : Style)
  | sequence (properties : Properties) (items : List Node)
  | mapping (properties : Properties) (fields : List (Node × Node))
  | reference (anchor : Anchor)

namespace Node

/-- A node that is not written: an empty plain scalar. -/
def empty : Node := scalar ⟨none, none⟩ "" .plain

/-- The anchor of a node. -/
def anchor? : Node → Option Anchor
  | scalar properties .. | sequence properties _ | mapping properties _ => properties.anchor
  | reference _ => none

mutual

/-- A node and those below it, in the order in which they begin. -/
def all : Node → List Node
  | scalar properties text style => [scalar properties text style]
  | sequence properties items => sequence properties items :: allItems items
  | mapping properties fields => mapping properties fields :: allFields fields
  | reference anchor => [reference anchor]

/-- The nodes of a sequence and below. -/
def allItems : List Node → List Node
  | [] => []
  | item :: rest => all item ++ allItems rest

/-- The nodes of a mapping and below. -/
def allFields : List (Node × Node) → List Node
  | [] => []
  | (key, value) :: rest => all key ++ all value ++ allFields rest

end

/-- **The anchored nodes by the numbers of their anchors;** of several with one
number the last one to begin comes first. -/
def anchors (root : Node) : List (Nat × Node) :=
  (all root).reverse.filterMap fun node => node.anchor?.map fun anchor => (anchor.number, node)

mutual

/-- How many marks of its parts a node has: one for a scalar or an alias, and one
each for the beginning and the end of a collection. -/
def marks : Node → Nat
  | scalar .. | reference _ => 1
  | sequence _ items => marksOfItems items + 2
  | mapping _ fields => marksOfFields fields + 2

/-- The marks of the nodes of a sequence. -/
def marksOfItems : List Node → Nat
  | [] => 0
  | item :: rest => marks item + marksOfItems rest

/-- The marks of the nodes of a mapping. -/
def marksOfFields : List (Node × Node) → Nat
  | [] => 0
  | (key, value) :: rest => marks key + marks value + marksOfFields rest

end

end Node

/-! ## Tags -/

/-- What the tags of the common types begin with. -/
def commonTag (name : String) : String := "tag:yaml.org,2002:" ++ name

end Admission.Yaml
