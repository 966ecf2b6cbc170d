import TestPlan.Value.Basic

/-!
# Values as finite trees

Containers that may refer to each other become finite trees. `Graph.value` does so for a document, and leaves
a knot only where that is impossible. `Value.spread` writes a knot out as a tree in which a knot is left
exactly where a container is met again inside itself; `spread_of_isPlain` says that a value without such
containers stays as it is.
-/

namespace TestPlan

/-- The container at an index as a finite tree, if neither it nor one below it contains itself. The trees that
are known are used and added to, so that a container with several places is written out once. The first
argument is the number of containers that the longest way down may pass. -/
def Graph.tree? (g : Graph) : Nat → Nat → StateT (Array (Option Value)) Option Value
  | 0, _ => failure
  | depth + 1, index => do
    if let some tree := (← get)[index]?.join then return tree
    let follow : Link → StateT (Array (Option Value)) Option Value
      | .scalar s => pure (.scalar s)
      | .cell next => g.tree? depth next
    let tree ← match g.cell index with
      | .list items => Value.list <$> items.mapM follow
      | .map entries => Value.map <$> entries.mapM fun (key, link) => do return (key, ← follow link)
      | .pair first second => do return .pair (← follow first) (← follow second)
      | .set members => pure (.set members)
    modify (·.setIfInBounds index (some tree))
    return tree

/-- The value of the container at an index: a finite tree, or a knot if there is none. -/
def Graph.value (g : Graph) (index : Nat) : Value :=
  match (g.tree? g.cells.size index).run (Array.replicate g.cells.size none) with
  | some (tree, _) => tree
  | none => .knot g index

/-- Fewer containers are free after one of them has been entered. -/
theorem length_erase_lt {free : List Nat} {index : Nat} (h : index ∈ free) :
    (free.erase index).length < free.length := by
  have := List.length_erase_of_mem h
  have := List.length_pos_of_mem h
  omega

/-- A container of a graph as a finite tree. The containers in `free` may still be entered; a knot stays
where a container is not free, that is, where it has been entered on the way. -/
def Graph.unroll (g : Graph) (free : List Nat) (index : Nat) : Value :=
  if h : index ∈ free then
    have := length_erase_lt h
    let follow : Link → Value
      | .scalar s => .scalar s
      | .cell next => g.unroll (free.erase index) next
    match g.cell index with
    | .list items => .list (items.map follow)
    | .map entries => .map (entries.map fun (key, link) => (key, follow link))
    | .pair first second => .pair (follow first) (follow second)
    | .set members => .set members
  else .knot g index
termination_by free.length

namespace Value

mutual

/-- A value as a finite tree: every container that contains itself is written out until it is met
again inside itself, and a knot is left there. -/
def spread : Value → Value
  | .scalar s => .scalar s
  | .list items => .list (spreadList items)
  | .map entries => .map (spreadEntries entries)
  | .pair first second => .pair (spread first) (spread second)
  | .set members => .set members
  | .knot g index => g.unroll (List.range g.cells.size) index
termination_by structural v => v

/-- The values of a list as finite trees. -/
def spreadList : List Value → List Value
  | [] => []
  | v :: rest => spread v :: spreadList rest
termination_by structural vs => vs

/-- The values of a mapping as finite trees. -/
def spreadEntries : List (Scalar × Value) → List (Scalar × Value)
  | [] => []
  | (key, v) :: rest => (key, spread v) :: spreadEntries rest
termination_by structural es => es

end

/-- The items of a list are spread one by one. -/
theorem spreadList_eq_map (vs : List Value) : spreadList vs = vs.map spread := by
  induction vs with
  | nil => rfl
  | cons v rest ih => rw [spreadList, ih, List.map_cons]

/-- The values of entries are spread one by one, under the same keys. -/
theorem spreadEntries_eq_map (es : Entries Value) : spreadEntries es = es.map fun e => (e.1, e.2.spread) := by
  induction es with
  | nil => rfl
  | cons entry rest ih => rw [spreadEntries, ih, List.map_cons]

mutual

/-- A value in which no container contains itself is a finite tree as it is. -/
theorem spread_of_isPlain {v : Value} (h : v.isPlain = true) : v.spread = v := by
  match v, h with
  | .scalar _, _ => rfl
  | .list _, h => exact congrArg Value.list (spreadList_of_arePlain h)
  | .map _, h => exact congrArg Value.map (spreadEntries_of_entriesPlain h)
  | .pair .., h =>
    obtain ⟨hfirst, hsecond⟩ := Bool.and_eq_true_iff.mp h
    rw [spread, spread_of_isPlain hfirst, spread_of_isPlain hsecond]
  | .set _, _ => rfl

/-- Values in which no container contains itself are finite trees as they are. -/
theorem spreadList_of_arePlain {vs : List Value} (h : arePlain vs = true) : spreadList vs = vs := by
  match vs, h with
  | [], _ => rfl
  | v :: rest, h =>
    obtain ⟨hv, hrest⟩ := Bool.and_eq_true_iff.mp h
    rw [spreadList, spread_of_isPlain hv, spreadList_of_arePlain hrest]

/-- Entries in which no container contains itself are finite trees as they are. -/
theorem spreadEntries_of_entriesPlain {es : List (Scalar × Value)} (h : entriesPlain es = true) :
    spreadEntries es = es := by
  match es, h with
  | [], _ => rfl
  | (key, v) :: rest, h =>
    obtain ⟨hv, hrest⟩ := Bool.and_eq_true_iff.mp h
    rw [spreadEntries, spread_of_isPlain hv, spreadEntries_of_entriesPlain hrest]

end

end Value
end TestPlan
