import TestPlan.Proofs.Knots
import TestPlan.Proofs.StepText.Members

/-!
# Key names in values that contain themselves

When the keys of a value are copied as text, those inside pairs stay as they are, and so do those of a container
that is met again inside itself and of all that it holds. No key without a name is left if all of these have names
(`Value.namesKeys_textKeys`). If all keys of a value have names then those of the containers that are met again have
names too, because the graph of such a container leads only to containers that are written out in the value as well
(`Value.loopsNameKeys_of_namesKeys`).
-/

namespace TestPlan

namespace Value

/-- All containers that are met again inside themselves name their keys, and so does what they hold. -/
def LoopsNameKeys (v : Value) : Prop :=
  ∀ g index, (Value.knot g index).Within v → (Value.knot g index).spread.namesKeys true = true

/-- If all loops of a value name their keys, so do those of its parts. -/
theorem LoopsNameKeys.part {v part : Value} (h : v.LoopsNameKeys) (hpart : part ∈ v.parts) : part.LoopsNameKeys :=
  fun g index hwithin => h g index (.inside hpart hwithin)

/-- The items of a list get their keys as texts one by one. -/
theorem textKeysList_eq_map (vs : List Value) : textKeysList vs = vs.map textKeys := by
  induction vs with
  | nil => rfl
  | cons v rest ih => rw [textKeysList, ih, List.map_cons]

/-- The items of a list are opened one by one. -/
theorem reopenList_eq_map (vs : List Value) : reopenList vs = vs.map reopen := by
  induction vs with
  | nil => rfl
  | cons v rest ih => rw [reopenList, ih, List.map_cons]

/-- The values of entries are opened one by one, under the same keys. -/
theorem reopenEntries_eq_map (es : Entries Value) : reopenEntries es = es.map fun e => (e.1, e.2.reopen) := by
  induction es with
  | nil => rfl
  | cons entry rest ih => rw [reopenEntries, ih, List.map_cons]

/-! ## Copied keys -/

/-- Keys with names still have names when containers are opened that are met again, if these name their keys. -/
theorem namesKeys_reopen {v : Value} (hnames : v.namesKeys true = true) (hloops : v.LoopsNameKeys) :
    v.reopen.namesKeys true = true := by
  induction v using parts_induction with
  | h v ih =>
    cases v with
    | list items =>
      rw [reopen, namesKeys, reopenList_eq_map, itemsNameKeys_iff, List.forall_mem_map]
      exact fun part hpart => ih part hpart (itemsNameKeys_iff.mp hnames part hpart) (hloops.part hpart)
    | map entries =>
      rw [reopen, namesKeys, reopenEntries_eq_map, entriesNameKeys_iff, List.forall_mem_map]
      intro entry hentry
      have hpart : entry.2 ∈ (Value.map entries).parts := List.mem_map_of_mem hentry
      obtain ⟨hkey, hvalue⟩ := entriesNameKeys_iff.mp hnames entry hentry
      exact ⟨hkey, ih _ hpart hvalue (hloops.part hpart)⟩
    | pair first second =>
      obtain ⟨hfirst, hsecond⟩ := Bool.and_eq_true_iff.mp hnames
      have hone : first ∈ (Value.pair first second).parts := List.mem_cons_self
      have htwo : second ∈ (Value.pair first second).parts := List.mem_cons_of_mem _ List.mem_cons_self
      rw [reopen, namesKeys, ih _ hone hfirst (hloops.part hone), ih _ htwo hsecond (hloops.part htwo)]
      rfl
    | knot g index => exact hloops g index .here
    | scalar s => rfl
    | set members => rfl

/-- Writing keys as text leaves no key without a name if the keys inside pairs and those of containers that are met
again have names. -/
theorem namesKeys_textKeys {v : Value} (hnames : v.namesKeys false = true) (hloops : v.LoopsNameKeys) :
    v.textKeys.namesKeys true = true := by
  induction v using parts_induction with
  | h v ih =>
    cases v with
    | list items =>
      rw [textKeys, namesKeys, textKeysList_eq_map, itemsNameKeys_iff, List.forall_mem_map]
      exact fun part hpart => ih part hpart (itemsNameKeys_iff.mp hnames part hpart) (hloops.part hpart)
    | map entries =>
      rw [textKeys, namesKeys, entriesNameKeys_iff, textKeysEntries_eq_map]
      refine Entries.forall_overlay (P := fun key => (!true || key.isNamed) = true)
        (Q := fun w : Value => w.namesKeys true = true) (fun e he => absurd he List.not_mem_nil)
        (List.forall_mem_map.mpr ?_)
      intro entry hentry
      have hpart : entry.2 ∈ (Value.map entries).parts := List.mem_map_of_mem hentry
      obtain ⟨-, hvalue⟩ := entriesNameKeys_iff.mp hnames entry hentry
      exact ⟨entry.1.isNamed_textKey, ih _ hpart hvalue (hloops.part hpart)⟩
    | pair first second =>
      obtain ⟨hfirst, hsecond⟩ := Bool.and_eq_true_iff.mp hnames
      have hone : first ∈ (Value.pair first second).parts := List.mem_cons_self
      have htwo : second ∈ (Value.pair first second).parts := List.mem_cons_of_mem _ List.mem_cons_self
      rw [textKeys, namesKeys, namesKeys_reopen hfirst (hloops.part hone),
        namesKeys_reopen hsecond (hloops.part htwo)]
      rfl
    | knot g index => exact hloops g index .here
    | scalar s => rfl
    | set members => rfl

/-! ## Keys of a graph -/

/-- The keys of a mapping. -/
def keys : Value → List Scalar
  | .map entries => entries.map (·.1)
  | _ => []

/-- A value names its keys if it is no mapping with other keys, and its parts name theirs. -/
theorem namesKeys_iff_parts {v : Value} : v.namesKeys true = true ↔
    (∀ key ∈ v.keys, key.isNamed = true) ∧ ∀ part ∈ v.parts, part.namesKeys true = true := by
  cases v with
  | list items => simp [namesKeys, itemsNameKeys_iff, parts, keys]
  | map entries =>
    simp only [namesKeys, entriesNameKeys_iff, parts, keys, List.forall_mem_map, Bool.not_true, Bool.false_or,
      forall_and]
  | _ => simp [namesKeys, parts, keys]

end Value

/-- The keys of a container of a graph. -/
def Cell.keys : Cell → List Scalar
  | .map entries => entries.map (·.1)
  | _ => []

namespace Graph

variable {g : Graph} {free : List Nat} {index next target : Nat}

/-- A container that is opened has the keys of its cell. -/
theorem keys_unroll (h : index ∈ free) : (g.unroll free index).keys = (g.cell index).keys := by
  rw [unroll, dif_pos h]
  cases g.cell index with
  | map entries =>
    rw [Value.keys, Cell.keys, List.map_map]
    rfl
  | _ => rfl

/-- All containers that a graph leads to from one name their keys. -/
def NamesKeysFrom (g : Graph) (index : Nat) : Prop :=
  ∀ target, Relation.ReflTransGen g.Leads index target → ∀ key ∈ (g.cell target).keys, key.isNamed = true

/-- If all containers that one leads to name their keys, so does it when it is opened, with all that it holds. -/
theorem NamesKeysFrom.unroll (h : g.NamesKeysFrom index) (free : List Nat) :
    (g.unroll free index).namesKeys true = true := by
  induction hlength : free.length using Nat.strongRecOn generalizing free index with
  | ind length ih =>
    by_cases hmem : index ∈ free
    · refine Value.namesKeys_iff_parts.mpr ⟨?_, ?_⟩
      · rw [keys_unroll hmem]
        exact h index .refl
      · rw [parts_unroll hmem, List.forall_mem_map]
        intro link hlink
        cases link with
        | scalar s => rfl
        | cell next =>
          have hnext : g.NamesKeysFrom next := fun target htarget => h target (htarget.head hlink)
          exact ih _ (hlength ▸ length_erase_lt hmem) hnext _ rfl
    · rw [unroll_of_not_mem hmem]
      rfl

/-- A graph leads from a container to another through containers that may be entered. -/
def LeadsWithin (g : Graph) (free : List Nat) : Nat → Nat → Prop :=
  Relation.ReflTransGen fun index next => g.Leads index next ∧ next ∈ free

/-- A way to another container goes on from the first one without coming back to it. -/
theorem LeadsWithin.cases_erase (h : g.LeadsWithin free index target) : target = index ∨
    ∃ next ∈ free.erase index, g.Leads index next ∧ g.LeadsWithin (free.erase index) next target := by
  induction h with
  | refl => exact .inl rfl
  | @tail middle target _ hstep ih =>
    obtain ⟨hleads, hfree⟩ := hstep
    by_cases heq : target = index
    · exact .inl heq
    · have herased := (List.mem_erase_of_ne heq).mpr hfree
      rcases ih with rfl | ⟨next, hnext, hfirst, hrest⟩
      · exact .inr ⟨target, herased, hleads, .refl⟩
      · exact .inr ⟨next, hnext, hfirst, hrest.tail ⟨hleads, herased⟩⟩

/-- A container that names its keys when it is written out leads only to containers that name theirs, on ways
through containers that may be entered. -/
theorem LeadsWithin.isNamed (h : g.LeadsWithin free index target) (hmem : index ∈ free)
    (hnames : (g.unroll free index).namesKeys true = true) : ∀ key ∈ (g.cell target).keys, key.isNamed = true := by
  induction hlength : free.length using Nat.strongRecOn generalizing free index with
  | ind length ih =>
    obtain ⟨hkeys, hparts⟩ := Value.namesKeys_iff_parts.mp hnames
    rcases h.cases_erase with rfl | ⟨next, hnext, hleads, hrest⟩
    · rwa [keys_unroll hmem] at hkeys
    · exact ih _ (hlength ▸ length_erase_lt hmem) hrest hnext (hparts _ (unroll_mem_parts hmem hleads)) rfl

/-- A container that leads to another is one of the graph. -/
theorem mem_range_of_leads (h : g.Leads index next) : index ∈ List.range g.cells.size := by
  by_contra hout
  have hnone : g.cells[index]? = none := Array.getElem?_eq_none (by simpa using hout)
  rw [Leads, cell, hnone] at h
  exact absurd h List.not_mem_nil

/-- A container that names its keys when it is written out leads only to containers that name theirs. -/
theorem namesKeysFrom_of_unroll (h : (g.unroll (List.range g.cells.size) index).namesKeys true = true) :
    g.NamesKeysFrom index := by
  intro target hleads
  by_cases hmem : target ∈ List.range g.cells.size
  · have hway : index ∈ List.range g.cells.size ∧ g.LeadsWithin (List.range g.cells.size) index target := by
      induction hleads with
      | refl => exact ⟨hmem, .refl⟩
      | tail _ hstep ih =>
        obtain ⟨hindex, hway⟩ := ih (mem_range_of_leads hstep)
        exact ⟨hindex, hway.tail ⟨hstep, hmem⟩⟩
    exact hway.2.isNamed hway.1 h
  · have hnone : g.cells[target]? = none := Array.getElem?_eq_none (by simpa using hmem)
    rw [cell, hnone]
    exact fun key hkey => absurd hkey List.not_mem_nil

end Graph

namespace Value

/-- If all keys of a value have names, so have those of containers that are met again inside themselves. -/
theorem loopsNameKeys_of_namesKeys {v : Value} (h : v.spread.namesKeys true = true) : v.spread.LoopsNameKeys := by
  intro g index hwithin
  induction v using parts_induction with
  | h v ih =>
    rcases v.spread_cases with ⟨g', root, rfl⟩ | ⟨hne, hparts⟩
    · obtain ⟨rfl, hleads, -⟩ := Graph.isClosed_of_within_unroll hwithin fun i hi => .inl hi
      have hnames := Graph.namesKeysFrom_of_unroll h
      exact Graph.NamesKeysFrom.unroll (fun target htarget => hnames target (hleads.trans htarget)) _
    · rcases within_iff.mp hwithin with heq | ⟨part, hpart, hinside⟩
      · exact absurd heq.symm (hne g index)
      · have hpartNames := (namesKeys_iff_parts.mp h).2 part hpart
        rw [hparts] at hpart
        obtain ⟨inner, hinner, rfl⟩ := List.mem_map.mp hpart
        exact ih inner hinner hpartNames hinside

end Value
end TestPlan
