import TestPlan.Yaml.Node

/-!
# Merged mappings

A mapping may merge others: an entry whose key is the sign for that names a mapping, or a sequence of
mappings, whose entries are taken over. `NodeTable.flatten` puts them in front of the mapping's own
entries, so that these, which come later, win. Of several mappings in one sequence the last comes first.

The entries that merge are taken away one after the other before what they name is flattened in turn. So
when a mapping is met again inside what it merges, it has fewer of them left, and contributes what it has
by then.
-/

namespace TestPlan.Yaml.NodeTable

/-- Whether an entry merges other mappings. -/
def isMerge (t : NodeTable) (entry : Nat × Nat) : Bool := (t.node entry.1).tag == .merge

/-- How many entries of all nodes merge other mappings. -/
def mergeCount (t : NodeTable) : Nat :=
  let counts := (List.range t.size).map fun i => ((t.entries i).filter t.isMerge).length
  counts.foldr (· + ·) 0

/-- A table in which the keys of a mapping that are the sign for its own value are texts. -/
def settleKeys (t : NodeTable) (i : Nat) : NodeTable :=
  ((t.entries i).filter fun entry => (t.node entry.1).tag == .value).foldl
    (fun t entry => t.retag entry.1 .text) t

/-- Flatten a mapping whose entries `merged` have been taken over so far: put what it still merges behind
these, and both in front of its own entries. Other nodes cannot be flattened. The first argument is greater
than the number of entries that merge. -/
def flatten : Nat → (merged : List (Nat × Nat)) → NodeTable → Nat → Except DocumentError NodeTable
  | 0, _, _, _ => .error .malformed
  | fuel + 1, merged, t, i =>
    match (t.node i).content with
    | .mapping entries =>
      match entries.find? t.isMerge with
      | none => .ok ((t.fill i (.mapping (merged ++ entries))).settleKeys i)
      | some entry =>
        let t := t.fill i (.mapping (entries.eraseP t.isMerge))
        match (t.node entry.2).content with
        | .sequence items => do
          let (groups, t) ← items.foldlM (fun (groups, t) item => do
            let t ← flatten fuel [] t item
            return (t.entries item :: groups, t)) ([], t)
          flatten fuel (merged ++ groups.flatten) t i
        | _ => do
          let t ← flatten fuel [] t entry.2
          flatten fuel (merged ++ t.entries entry.2) t i
    | _ => .error .malformed

end TestPlan.Yaml.NodeTable
