import TestPlan.Yaml.Scalar

/-!
# Nodes of a document

The nodes of a document under numbers. A collection has its number before its parts have theirs, and
refers to them by number, so a part may be a collection around it. Anchors give nodes names under which
they can be referred to.
-/

namespace TestPlan.Yaml

/-- What a node consists of. -/
inductive Content
  | scalar (text : Text)
  | sequence (items : List Nat)
  | mapping (entries : List (Nat × Nat))

/-- A node with its tag. -/
structure Node where
  tag : Tag
  content : Content

/-- Nodes under numbers, and the numbers of those with anchors. -/
structure NodeTable where
  nodes : Array Node
  anchors : List (String × Nat)

namespace NodeTable

/-- The table without nodes. -/
def empty : NodeTable := ⟨#[], []⟩

/-- How many nodes there are. -/
def size (t : NodeTable) : Nat := t.nodes.size

/-- A node by its number. -/
def node (t : NodeTable) (i : Nat) : Node := t.nodes[i]?.getD ⟨.unknown, .scalar ""⟩

/-- The number of the node with an anchor. -/
def find? (t : NodeTable) (anchor : String) : Option Nat :=
  (t.anchors.find? fun (name, _) => name == anchor).map (·.2)

/-- Add a node, which takes the next number, under its anchor; no other node may have it. -/
def add (t : NodeTable) (anchor : Option String) (node : Node) : Except DocumentError (Nat × NodeTable) :=
  match anchor with
  | none => .ok (t.size, { t with nodes := t.nodes.push node })
  | some name =>
    if (t.find? name).isSome then .error .malformed
    else .ok (t.size, ⟨t.nodes.push node, (name, t.size) :: t.anchors⟩)

/-- Give a node its parts. -/
def fill (t : NodeTable) (i : Nat) (content : Content) : NodeTable :=
  { t with nodes := t.nodes.modify i fun node => { node with content } }

/-- Give a node a tag. -/
def retag (t : NodeTable) (i : Nat) (tag : Tag) : NodeTable :=
  { t with nodes := t.nodes.modify i fun node => { node with tag } }

/-- The entries of a mapping by the numbers of keys and values; other nodes have none. -/
def entries (t : NodeTable) (i : Nat) : List (Nat × Nat) :=
  match (t.node i).content with
  | .mapping entries => entries
  | _ => []

end NodeTable
end TestPlan.Yaml
