import Mathlib.Logic.Relation
import TestPlan.Proofs.PlainStep

/-!
# Containers inside themselves

Writing a container of a graph out as a tree leaves a knot where a container is met again that has been entered on
the way (`Graph.unroll`). So a knot is left if the graph leads from the container to one that may not be entered
(`Graph.isPlain_unroll_of_leads`), and a knot that is left stands for a container that the graph leads back to
itself, or for none of the graph: writing it out as a tree of its own leaves a knot again
(`Value.isPlain_spread_of_within`).
-/

namespace TestPlan

namespace Value

/-- The values that a value holds directly. -/
def parts : Value → List Value
  | .scalar _ => []
  | .list items => items
  | .map entries => entries.map (·.2)
  | .pair first second => [first, second]
  | .set _ => []
  | .knot .. => []

/-- A value is inside another or is the other. -/
inductive Within (w : Value) : Value → Prop
  | here : Within w w
  | inside {v part : Value} (hpart : part ∈ v.parts) (h : Within w part) : Within w v

/-- A part of a value is smaller than the value. -/
theorem sizeOf_lt_of_mem_parts {v part : Value} (h : part ∈ v.parts) : sizeOf part < sizeOf v := by
  cases v with
  | list items =>
    have hitem : part ∈ items := h
    have := List.sizeOf_lt_of_mem hitem
    simp only [Value.list.sizeOf_spec]
    omega
  | map entries =>
    obtain ⟨entry, hentry, rfl⟩ := List.mem_map.mp h
    have := List.sizeOf_lt_of_mem hentry
    cases entry
    simp only [Prod.mk.sizeOf_spec, Value.map.sizeOf_spec] at this ⊢
    omega
  | pair first second =>
    simp only [parts, List.mem_cons, List.not_mem_nil, or_false] at h
    rcases h with rfl | rfl <;> simp only [Value.pair.sizeOf_spec] <;> omega
  | scalar s => exact absurd h List.not_mem_nil
  | set members => exact absurd h List.not_mem_nil
  | knot g index => exact absurd h List.not_mem_nil

/-- What holds of a value when it holds of its parts holds of all values. -/
theorem parts_induction {motive : Value → Prop} (h : ∀ v, (∀ part ∈ v.parts, motive part) → motive v) (v : Value) :
    motive v := by
  induction hsize : sizeOf v using Nat.strongRecOn generalizing v with
  | ind size ih => exact h v fun part hpart => ih _ (hsize ▸ sizeOf_lt_of_mem_parts hpart) part rfl

/-- A value is within another one if it is that one, or within a part of it. -/
theorem within_iff {w v : Value} : w.Within v ↔ w = v ∨ ∃ part ∈ v.parts, w.Within part := by
  constructor
  · intro h
    cases h with
    | here => exact .inl rfl
    | inside hpart h => exact .inr ⟨_, hpart, h⟩
  · rintro (rfl | ⟨part, hpart, h⟩)
    · exact .here
    · exact .inside hpart h

/-- A value is plain if it is no knot and its parts are plain. -/
theorem isPlain_iff_parts {v : Value} :
    v.isPlain = true ↔ (∀ g index, v ≠ .knot g index) ∧ ∀ part ∈ v.parts, part.isPlain = true := by
  cases v with
  | list items => simp [isPlain, arePlain_iff, parts]
  | map entries =>
    simp only [isPlain, entriesPlain_iff, parts, List.forall_mem_map, ne_eq, reduceCtorEq, not_false_eq_true,
      implies_true, true_and]
  | _ => simp [isPlain, parts]

/-- A value with a loop in a part has a loop. -/
theorem isPlain_eq_false_of_part {v part : Value} (hpart : part ∈ v.parts) (h : part.isPlain = false) :
    v.isPlain = false := by
  by_contra hplain
  have hall := (isPlain_iff_parts.mp (by simpa using hplain)).2 _ hpart
  exact absurd hall (by rw [h]; decide)

/-- A value is plain unless there is a knot in it. -/
theorem isPlain_eq_false_iff {v : Value} : v.isPlain = false ↔ ∃ g index, (Value.knot g index).Within v := by
  constructor
  · intro h
    induction v using parts_induction with
    | h v ih =>
      by_contra hnone
      have hplain : v.isPlain = true := by
        refine isPlain_iff_parts.mpr ⟨fun g index heq => hnone ⟨g, index, heq ▸ .here⟩, fun part hpart => ?_⟩
        by_contra hpartial
        obtain ⟨g, index, hwithin⟩ := ih part hpart (by simpa using hpartial)
        exact hnone ⟨g, index, .inside hpart hwithin⟩
      exact absurd hplain (by rw [h]; decide)
  · rintro ⟨g, index, h⟩
    induction h with
    | here => rfl
    | inside hpart _ ih => exact isPlain_eq_false_of_part hpart ih

end Value

/-- What a container of a graph holds. -/
def Cell.links : Cell → List Link
  | .list items => items
  | .map entries => entries.map (·.2)
  | .pair first second => [first, second]
  | .set _ => []

namespace Graph

variable {g : Graph} {free : List Nat} {index next : Nat}

/-- A container of a graph holds another. -/
def Leads (g : Graph) (index next : Nat) : Prop := Link.cell next ∈ (g.cell index).links

/-- What follows a link on the way down from a container. -/
def follow (g : Graph) (free : List Nat) : Link → Value
  | .scalar s => .scalar s
  | .cell next => g.unroll free next

/-- A container that may be entered is written out as one that holds what follows its links. -/
theorem parts_unroll (h : index ∈ free) :
    (g.unroll free index).parts = (g.cell index).links.map (g.follow (free.erase index)) := by
  rw [unroll, dif_pos h]
  cases g.cell index with
  | list items =>
    refine List.map_congr_left fun link _ => ?_
    cases link <;> rfl
  | map entries =>
    rw [Value.parts, Cell.links, List.map_map, List.map_map]
    refine List.map_congr_left fun entry _ => ?_
    obtain ⟨key, link⟩ := entry
    cases link <;> rfl
  | pair first second => cases first <;> cases second <;> rfl
  | set members => rfl

/-- A container that may not be entered stays a knot. -/
theorem unroll_of_not_mem (h : index ∉ free) : g.unroll free index = .knot g index := by rw [unroll, dif_neg h]

/-- A container that may be entered is opened. -/
theorem unroll_ne_knot (h : index ∈ free) (g' : Graph) (other : Nat) : g.unroll free index ≠ .knot g' other := by
  rw [unroll, dif_pos h]
  cases g.cell index <;> exact nofun

/-- What an opened container leads to is a part of it, in which it may not be entered again. -/
theorem unroll_mem_parts (h : index ∈ free) (hleads : g.Leads index next) :
    g.unroll (free.erase index) next ∈ (g.unroll free index).parts := by
  rw [parts_unroll h]
  exact List.mem_map.mpr ⟨.cell next, hleads, rfl⟩

/-- A knot is left on a way that leads to a container that may not be entered. -/
theorem isPlain_unroll_of_leads {target : Nat} (h : Relation.ReflTransGen g.Leads index target)
    (htarget : target ∉ free) : (g.unroll free index).isPlain = false := by
  induction hlength : free.length using Nat.strongRecOn generalizing free index with
  | ind length ih =>
    by_cases hmem : index ∈ free
    · rcases h.cases_head with rfl | ⟨next, hleads, hrest⟩
      · exact absurd hmem htarget
      · have hnext := ih _ (hlength ▸ length_erase_lt hmem) hrest (fun h => htarget (List.mem_of_mem_erase h)) rfl
        exact Value.isPlain_eq_false_of_part (unroll_mem_parts hmem hleads) hnext
    · rw [unroll_of_not_mem hmem]
      rfl

/-- A container is closed if it is none of its graph or the graph leads back to it. -/
def IsClosed (g : Graph) (index : Nat) : Prop :=
  index ∉ List.range g.cells.size ∨ Relation.TransGen g.Leads index index

/-- A closed container that is written out leaves a knot. -/
theorem IsClosed.isPlain_unroll (h : g.IsClosed index) :
    (g.unroll (List.range g.cells.size) index).isPlain = false := by
  by_cases hmem : index ∈ List.range g.cells.size
  · obtain ⟨next, hleads, hrest⟩ := Relation.TransGen.head'_iff.mp (h.resolve_left (not_not_intro hmem))
    have hentered : index ∉ (List.range g.cells.size).erase index := List.nodup_range.not_mem_erase
    exact Value.isPlain_eq_false_of_part (unroll_mem_parts hmem hleads) (isPlain_unroll_of_leads hrest hentered)
  · rw [unroll_of_not_mem hmem]
    rfl

/-- A knot that is left stands for a container that the graph leads to. It is closed if the graph leads from all
containers of it that may not be entered to the one that is written out. -/
theorem isClosed_of_within_unroll {g' : Graph} {other : Nat}
    (h : (Value.knot g' other).Within (g.unroll free index))
    (hentered : ∀ i ∉ free, i ∉ List.range g.cells.size ∨ Relation.TransGen g.Leads i index) :
    g' = g ∧ Relation.ReflTransGen g.Leads index other ∧ g.IsClosed other := by
  induction hlength : free.length using Nat.strongRecOn generalizing free index with
  | ind length ih =>
    by_cases hmem : index ∈ free
    · rcases Value.within_iff.mp h with heq | ⟨part, hpart, hwithin⟩
      · exact absurd heq.symm (unroll_ne_knot hmem g' other)
      · rw [parts_unroll hmem] at hpart
        obtain ⟨link, hlink, rfl⟩ := List.mem_map.mp hpart
        cases link with
        | scalar s =>
          rcases Value.within_iff.mp hwithin with heq | ⟨part, hnone, -⟩
          · exact absurd heq nofun
          · exact absurd hnone List.not_mem_nil
        | cell next =>
          have hnext : ∀ i ∉ free.erase index, i ∉ List.range g.cells.size ∨ Relation.TransGen g.Leads i next := by
            -- the way from a container that has been entered goes on through this one
            intro i hi
            by_cases heq : i = index
            · exact .inr (heq ▸ .single hlink)
            · exact (hentered i fun hfree => hi ((List.mem_erase_of_ne heq).mpr hfree)).imp_right (·.tail hlink)
          obtain ⟨hgraph, hleads, hclosed⟩ := ih _ (hlength ▸ length_erase_lt hmem) hwithin hnext rfl
          exact ⟨hgraph, hleads.head hlink, hclosed⟩
    · rw [unroll_of_not_mem hmem] at h
      rcases Value.within_iff.mp h with heq | ⟨part, hnone, -⟩
      · obtain ⟨rfl, rfl⟩ := Value.knot.inj heq
        exact ⟨rfl, .refl, hentered _ hmem⟩
      · exact absurd hnone List.not_mem_nil

end Graph

namespace Value

/-- A value is a knot, or spreading goes on in its parts. -/
theorem spread_cases (v : Value) : (∃ g index, v = .knot g index) ∨
    (∀ g index, v.spread ≠ .knot g index) ∧ v.spread.parts = v.parts.map spread := by
  cases v with
  | knot g index => exact .inl ⟨g, index, rfl⟩
  | list items => exact .inr ⟨by simp [spread], by rw [spread, parts, parts, spreadList_eq_map]⟩
  | map entries =>
    refine .inr ⟨by simp [spread], ?_⟩
    rw [spread, parts, parts, spreadEntries_eq_map, List.map_map, List.map_map]
    rfl
  | scalar s => exact .inr ⟨by simp [spread], rfl⟩
  | pair first second => exact .inr ⟨by simp [spread], rfl⟩
  | set members => exact .inr ⟨by simp [spread], rfl⟩

/-- A knot that is left in a tree stands for a container that leaves a knot when it is written out itself. -/
theorem isPlain_spread_of_within {v : Value} {g : Graph} {index : Nat} (h : (Value.knot g index).Within v.spread) :
    (Value.knot g index).spread.isPlain = false := by
  induction v using parts_induction with
  | h v ih =>
    rcases v.spread_cases with ⟨g', root, rfl⟩ | ⟨hne, hparts⟩
    · obtain ⟨rfl, -, hclosed⟩ := Graph.isClosed_of_within_unroll h fun i hi => .inl hi
      exact hclosed.isPlain_unroll
    · rcases within_iff.mp h with heq | ⟨part, hpart, hwithin⟩
      · exact absurd heq.symm (hne g index)
      · rw [hparts] at hpart
        obtain ⟨inner, hinner, rfl⟩ := List.mem_map.mp hpart
        exact ih inner hinner hwithin

end Value
end TestPlan
