import TestPlan.Value.SlotTable
import TestPlan.Yaml.Node.Merge
import TestPlan.Yaml.Node.Reader
import TestPlan.Yaml.Token.Layout

/-!
# Documents

Reading a text as a document value. The containers of a document are filled in the order in which they
are met, a container's parts before the parts of its parts; so of two scalars without a value the one in
the outer container is reported. A container that cannot be a key of a mapping, a tag that is not known
and an entry that merges no mapping make a text malformed.

`read` gives the value of a whole text: null for a text without a document, a finite tree, or, where
aliases lead back into a container around them, a knot.
-/

namespace TestPlan.Yaml

namespace NodeTable

/-- The text of a node that has a scalar's tag. A mapping stands for the value of its first entry whose
key is the sign for that. The first argument bounds how often this happens. -/
def scalarText (t : NodeTable) : Nat → Nat → Except DocumentError Text
  | 0, _ => .error (.scalar .endless)
  | fuel + 1, i =>
    match (t.node i).content with
    | .scalar text => .ok text
    | .sequence _ => .error .malformed
    | .mapping entries =>
      match entries.find? fun entry => (t.node entry.1).tag == .value with
      | some entry => scalarText t fuel entry.2
      | none => .error .malformed

/-- Whether a node is a mapping. -/
def isMapping (t : NodeTable) (i : Nat) : Bool :=
  match (t.node i).content with
  | .mapping _ => true
  | _ => false

/-- The scalar that a node becomes, and whether it is the one value that all words for what is not a
number share. Of the tags that stand for no value nothing more is looked at. -/
def scalar (t : NodeTable) (i : Nat) : Except DocumentError (Scalar × Bool) := do
  let tag := (t.node i).tag
  if tag == .merge || tag == .value || tag == .unknown then throw .malformed
  let text ← t.scalarText (t.size + 1) i
  if tag == .timestamp && t.isMapping i then throw (.scalar .timestampMapping)
  let s ← Scalar.read tag text
  return (s, tag == .float && Scalar.isNanWord text)

end NodeTable

/-- What a node has become. Two keys that are not numbers are the same key only if they have the same
origin: the node they come from, or none for the value that the words for it share. -/
structure Built where
  link : Link
  origin : Option Nat

/-- The values found so far: the nodes, some of them flattened, and the number of entries that merged in
the beginning; what each node has become; the containers by their numbers, and the nodes whose containers
are still to be filled. A container has the number of its node; pairs, which have no node of their own,
come after all nodes. -/
structure Construction where
  table : NodeTable
  merges : Nat
  built : Array (Option Built)
  cells : Array Cell
  waiting : List Nat

namespace Construction

/-- Nothing is known of a table yet. -/
def start (t : NodeTable) : Construction :=
  ⟨t, t.mergeCount, Array.replicate t.size none, Array.replicate t.size (.list []), []⟩

/-- Whether nodes with a tag become containers. -/
def isContainerTag : Tag → Bool
  | .sequence | .mapping | .set | .orderedMap | .pairs => true
  | _ => false

/-- What a node becomes. A container is only noted down, to be filled later. -/
def build (c : Construction) (i : Nat) : Except DocumentError (Built × Construction) :=
  match c.built[i]?.join with
  | some found => .ok (found, c)
  | none => do
    let (built, waiting) ←
      if isContainerTag (c.table.node i).tag then pure (Built.mk (.cell i) (some i), c.waiting ++ [i])
      else do
        let (s, shared) ← c.table.scalar i
        pure (Built.mk (.scalar s) (if shared then none else some i), c.waiting)
    return (built, { c with built := c.built.setIfInBounds i (some built), waiting })

/-- The items of a sequence. -/
def items (c : Construction) : List Nat → Except DocumentError (List Link × Construction)
  | [] => .ok ([], c)
  | i :: rest => do
    let (first, c) ← c.build i
    let (more, c) ← c.items rest
    return (first.link :: more, c)

/-- An entry of a mapping, with the origin of its key. -/
structure Entry where
  key : Scalar
  origin : Option Nat
  value : Link

/-- Whether two keys are one key. -/
def Entry.sameKey (a b : Entry) : Bool :=
  match a.key, b.key with
  | .float .nan, .float .nan => a.origin == b.origin
  | k, l => k.sameKey l

/-- Write an entry: an equal key keeps its place and its form, a new one comes last. -/
def putEntry (entry : Entry) : List Entry → List Entry
  | [] => [entry]
  | e :: rest =>
    if e.sameKey entry then { e with value := entry.value } :: rest else e :: putEntry entry rest

/-- Write the entries of a mapping one after the other over those found so far. -/
def entries (c : Construction) (found : List Entry) :
    List (Nat × Nat) → Except DocumentError (List Entry × Construction)
  | [] => .ok (found, c)
  | (k, v) :: rest => do
    let (key, c) ← c.build k
    match key.link with
    | .cell _ => throw .malformed
    | .scalar s => do
      let (value, c) ← c.build v
      c.entries (putEntry ⟨s, key.origin, value.link⟩ found) rest

/-- The entries of a mapping with those of the mappings that it merges. -/
def mappingEntries (c : Construction) (i : Nat) : Except DocumentError (List Entry × Construction) := do
  let table ← NodeTable.flatten (c.merges + 1) [] c.table i
  { c with table }.entries [] (table.entries i)

/-- The pairs of a sequence of mappings with one entry each. -/
def pairs (c : Construction) : List Nat → Except DocumentError (List Link × Construction)
  | [] => .ok ([], c)
  | i :: rest =>
    match c.table.entries i with
    | [(k, v)] => do
      let (first, c) ← c.build k
      let (second, c) ← c.build v
      let number := c.cells.size
      let (more, c) ← { c with cells := c.cells.push (.pair first.link second.link) }.pairs rest
      return (.cell number :: more, c)
    | _ => throw .malformed

/-- Fill the container of a node. -/
def fill [Runtime] (c : Construction) (i : Nat) : Except DocumentError Construction := do
  let node := c.table.node i
  let (cell, c) ← match node.tag, node.content with
    | .sequence, .sequence numbers => do
      let (links, c) ← c.items numbers
      pure (Cell.list links, c)
    | .mapping, .mapping _ => do
      let (found, c) ← c.mappingEntries i
      pure (.map (found.map fun e => (e.key, e.value)), c)
    | .set, .mapping _ => do
      let (found, c) ← c.mappingEntries i
      pure (.set (Scalar.setOrder (found.map (·.key))), c)
    | .orderedMap, .sequence numbers | .pairs, .sequence numbers => do
      let (links, c) ← c.pairs numbers
      pure (Cell.list links, c)
    | _, _ => throw .malformed
  return { c with cells := c.cells.setIfInBounds i cell }

/-- Fill the waiting containers, and those that they bring. Every container waits once, so the number of
nodes bounds the number of steps. -/
def fillAll [Runtime] : Nat → Construction → Except DocumentError Construction
  | 0, c => .ok c
  | fuel + 1, c =>
    match c.waiting with
    | [] => .ok c
    | i :: rest => do fillAll fuel (← { c with waiting := rest }.fill i)

end Construction

/-- The value of a root node. -/
def valueOf [Runtime] (t : NodeTable) (root : Nat) : Except DocumentError Value := do
  let (found, c) ← (Construction.start t).build root
  let c ← Construction.fillAll t.size c
  match found.link with
  | .scalar s => return .scalar s
  | .cell index => return (Graph.mk c.cells).value index

/-- The value of a text; no document holds halves of characters. -/
def read [Runtime] (text : Text) : Except DocumentError Value := do
  let some chars := text.chars? | throw .malformed
  match ← NodeTable.ofTokens? (tokens chars) with
  | none => return .null
  | some (root, t) => valueOf t root

end TestPlan.Yaml
