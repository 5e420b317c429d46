/-!
# Nodes

A document is a graph: an alias leads to the very node that its anchor names, also to one that is
not complete yet.  So the nodes have numbers, and a collection holds the numbers of its parts.

Of the standard tags two are left out and count as unknown: that of binary data, since no value is a
run of bytes, and that of sets, since the order of a set is not determined.

Main definitions:

* `Yaml.Tag`: the kinds of data that nodes stand for;
* `Yaml.Content`, `Yaml.Node`: the nodes;
* `Yaml.Graph`: nodes by their numbers.

Main results:

* `Yaml.Graph.get?_add`: an added node is found under its number;
* `Yaml.Graph.size_set`: replacing a node adds none.
-/

set_option autoImplicit false

namespace Bibliograph.Yaml

/-- The kinds of data that nodes stand for.  A sequence of `pairs` has mappings of one pair as its
items. -/
inductive Tag where
  | null
  | bool
  | int
  | float
  | text
  | timestamp
  | merge
  | value
  | sequence
  | pairs
  | mapping
  | unknown
  deriving Repr, DecidableEq

/-- What the standard tags start with. -/
def standardTags : String := "tag:yaml.org,2002:"

/-- The standard tags by the names behind their common beginning. -/
def Tag.names : List (String × Tag) := [
  ("null", .null), ("bool", .bool), ("int", .int), ("float", .float), ("str", .text),
  ("timestamp", .timestamp), ("merge", .merge), ("value", .value), ("seq", .sequence),
  ("omap", .pairs), ("pairs", .pairs), ("map", .mapping)]

/-- The tag with this full name. -/
def Tag.ofName (s : String) : Tag :=
  match Tag.names.find? fun p => standardTags ++ p.1 == s with
  | some p => p.2
  | none => .unknown

/-- What a node holds. -/
inductive Content where
  | scalar (text : String)
  | sequence (items : List Nat)
  | mapping (pairs : List (Nat × Nat))
  deriving Repr, DecidableEq

/-- A node, with the line on which it starts. -/
structure Node where
  tag : Tag
  content : Content
  line : Nat
  deriving Repr, DecidableEq

/-- Nodes by their numbers. -/
structure Graph where
  nodes : Array Node := #[]
  deriving Repr, DecidableEq

namespace Graph

/-- The node with a number. -/
def get? (g : Graph) (n : Nat) : Option Node :=
  g.nodes[n]?

/-- One more node, and its number. -/
def add (g : Graph) (node : Node) : Nat × Graph :=
  (g.nodes.size, { nodes := g.nodes.push node })

/-- Another node under a number. -/
def set (g : Graph) (n : Nat) (node : Node) : Graph :=
  { nodes := g.nodes.setIfInBounds n node }

/-- Another content for a node. -/
def fill (g : Graph) (n : Nat) (content : Content) : Graph :=
  match g.get? n with
  | some node => g.set n { node with content }
  | none => g

/-- The pairs of a node that is a mapping. -/
def pairs? (g : Graph) (n : Nat) : Option (List (Nat × Nat)) :=
  match (g.get? n).map Node.content with
  | some (.mapping pairs) => some pairs
  | _ => none

/-- The items of a node that is a sequence. -/
def items? (g : Graph) (n : Nat) : Option (List Nat) :=
  match (g.get? n).map Node.content with
  | some (.sequence items) => some items
  | _ => none

/-- Whether a node has this tag. -/
def hasTag (g : Graph) (n : Nat) (t : Tag) : Bool :=
  (g.get? n).any fun node => node.tag == t

theorem get?_add (g : Graph) (node : Node) : (g.add node).2.get? (g.add node).1 = some node := by
  simp [add, get?]

theorem size_set (g : Graph) (n : Nat) (node : Node) :
    (g.set n node).nodes.size = g.nodes.size := by
  simp [set]

end Graph

end Bibliograph.Yaml
