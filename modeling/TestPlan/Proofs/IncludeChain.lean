import Mathlib.Data.List.Infix
import Mathlib.Data.List.Nodup
import Mathlib.Data.List.Perm.Subperm
import TestPlan.IncludeChain
import TestPlan.Library

/-!
# What include chains keep

Entering a library needs room on the chain and leaving it leads back. What a chain answers besides that it
is full does not depend on its limit. A chain names no library twice and is not longer than its limit, whatever is
entered and left (`IncludeChain.IsSound`). If only libraries of a table have entered it (`IncludeChain.IsWithin`),
it is not longer than the table either.
-/

namespace TestPlan

namespace IncludeChain

variable {chain longer : IncludeChain} {table : LibraryTable} {limit : Int} {name : Text}

/-- A library is entered only if there is room for it. -/
theorem room_of_push (h : chain.push name = .ok longer) : (chain.depth : Int) < chain.limit := by
  by_contra hfull
  rw [push_of_full (push_eq_ok h).1 (by omega)] at h
  simp at h

/-- Entering a library keeps the limit. -/
theorem push_limit (h : chain.push name = .ok longer) : longer.limit = chain.limit := by
  obtain ⟨-, rfl⟩ := push_eq_ok h
  rfl

/-- Only a library that is on the chain is refused as circular, and its name is put behind the chain. -/
theorem mem_of_circular {names : List Text} (h : chain.push name = .error (.circular names)) :
    name ∈ chain.names ∧ names = chain.names ++ [name] := by
  by_cases hmem : name ∈ chain.names
  · rw [push_of_mem hmem] at h
    exact ⟨hmem, by simpa using h.symm⟩
  · unfold push at h
    rw [if_neg hmem] at h
    split at h <;> simp at h

/-- The chain that is left when its innermost library is left, if there is one. -/
def left (chain : IncludeChain) : IncludeChain := (chain.pop?.map (·.2)).getD chain

/-- Leaving a library takes the last name off. -/
theorem left_names (chain : IncludeChain) : chain.left.names = chain.names.dropLast := by
  unfold left pop?
  cases h : chain.names.getLast? with
  | none => simp_all
  | some name => rfl

/-- Leaving a library keeps the limit. -/
theorem left_limit (chain : IncludeChain) : chain.left.limit = chain.limit := by
  unfold left pop?
  cases chain.names.getLast? <;> rfl

/-- Leaving a library that has been entered leads back to the chain from before. -/
theorem left_of_push (h : chain.push name = .ok longer) : longer.left = chain := by
  obtain ⟨-, rfl⟩ := push_eq_ok h
  simp [left, pop?]

/-- The same libraries under another limit. -/
def withLimit (chain : IncludeChain) (limit : Int) : IncludeChain := { chain with limit := limit }

/-- A library that may be entered may also be under a higher limit. -/
theorem push_withLimit (h : chain.push name = .ok longer) (hle : chain.limit ≤ limit) :
    (chain.withLimit limit).push name = .ok (longer.withLimit limit) := by
  have hroom := room_of_push h
  obtain ⟨hfresh, rfl⟩ := push_eq_ok h
  have hhigher : ((chain.withLimit limit).depth : Int) < limit := Int.lt_of_lt_of_le hroom hle
  exact push_of_room hfresh hhigher

/-- A library that is refused although there is room is refused under every limit. -/
theorem push_withLimit_of_error {e : IncludeError} (h : chain.push name = .error e)
    (hroom : ∀ names most, e ≠ .tooDeep names most) (limit : Int) :
    (chain.withLimit limit).push name = .error e := by
  by_cases hmem : name ∈ chain.names
  · rw [push_of_mem hmem] at h
    obtain rfl := Except.error.inj h
    exact push_of_mem hmem
  · by_cases hfull : chain.limit ≤ chain.depth
    · rw [push_of_full hmem hfull] at h
      exact absurd (Except.error.inj h).symm (hroom _ _)
    · rw [push_of_room hmem (by omega)] at h
      simp at h

/-- What a chain with a limit keeps to. -/
structure IsSound (chain : IncludeChain) (limit : Int) : Prop where
  limit_eq : chain.limit = limit
  nodup : chain.names.Nodup
  bounded : chain.names.length ≤ (max limit 0).toNat

/-- The empty chain is sound. -/
theorem isSound_empty (limit : Int) : (empty limit).IsSound limit := ⟨rfl, List.nodup_nil, Nat.zero_le _⟩

/-- Entering a library keeps to the limit. -/
theorem IsSound.push (h : chain.IsSound limit) (hpush : chain.push name = .ok longer) : longer.IsSound limit := by
  have hroom := room_of_push hpush
  obtain ⟨hfresh, rfl⟩ := push_eq_ok hpush
  refine ⟨h.limit_eq, ?_, ?_⟩
  · refine List.nodup_append.mpr ⟨h.nodup, List.nodup_singleton _, fun a ha b hb => ?_⟩
    rintro rfl
    exact hfresh (List.mem_singleton.mp hb ▸ ha)
  · have hlimit := h.limit_eq
    simp only [depth] at hroom
    simp only [List.length_append, List.length_singleton]
    omega

/-- Leaving a library keeps to the limit. -/
theorem IsSound.left (h : chain.IsSound limit) : chain.left.IsSound limit := by
  refine ⟨chain.left_limit.trans h.limit_eq, ?_, ?_⟩
  · rw [left_names]
    exact h.nodup.sublist (List.dropLast_sublist _)
  · have hbounded := h.bounded
    rw [left_names, List.length_dropLast]
    omega

/-- What the chain of an expansion with a table of libraries and a limit keeps to. -/
structure IsWithin (chain : IncludeChain) (table : LibraryTable) (limit : Int) : Prop where
  limit_eq : chain.limit = limit
  nodup : chain.names.Nodup
  known : ∀ name ∈ chain.names, name ∈ table.names
  bounded : chain.names.length ≤ (max limit 0).toNat

/-- A chain of known libraries is sound. -/
theorem IsWithin.isSound (h : chain.IsWithin table limit) : chain.IsSound limit := ⟨h.limit_eq, h.nodup, h.bounded⟩

/-- A sound chain whose libraries are known is a chain of the table. -/
theorem IsSound.isWithin (h : chain.IsSound limit) (hknown : ∀ name ∈ chain.names, name ∈ table.names) :
    chain.IsWithin table limit := ⟨h.limit_eq, h.nodup, hknown, h.bounded⟩

/-- The empty chain is one of every table. -/
theorem isWithin_empty (table : LibraryTable) (limit : Int) : (empty limit).IsWithin table limit :=
  (isSound_empty limit).isWithin fun _ h => absurd h List.not_mem_nil

/-- Entering a library of the table keeps to the table and the limit. -/
theorem IsWithin.push (h : chain.IsWithin table limit) (hname : name ∈ table.names)
    (hpush : chain.push name = .ok longer) : longer.IsWithin table limit := by
  have hsound := h.isSound.push hpush
  obtain ⟨-, rfl⟩ := push_eq_ok hpush
  apply hsound.isWithin
  intro other hother
  rcases List.mem_append.mp hother with hother | hother
  · exact h.known other hother
  · rwa [List.mem_singleton.mp hother]

/-- Leaving a library keeps to the table and the limit. -/
theorem IsWithin.left (h : chain.IsWithin table limit) : chain.left.IsWithin table limit := by
  apply h.isSound.left.isWithin
  intro other hother
  rw [left_names] at hother
  exact h.known other (List.mem_of_mem_dropLast hother)

/-- The chain is not longer than the table. -/
theorem IsWithin.length_le (h : chain.IsWithin table limit) : chain.names.length ≤ table.length := by
  have hle := (List.subperm_of_subset h.nodup h.known).length_le
  rwa [LibraryTable.names, List.length_map] at hle

/-- There is room for every library of the table where the limit is not below their number. -/
theorem IsWithin.not_tooDeep (h : chain.IsWithin table limit) (hname : name ∈ table.names)
    (hlimit : (table.length : Int) ≤ limit) (names : List Text) (most : Int) :
    chain.push name ≠ .error (.tooDeep names most) := by
  intro hpush
  by_cases hmem : name ∈ chain.names
  · rw [push_of_mem hmem] at hpush
    simp at hpush
  · have hnodup : (name :: chain.names).Nodup := List.nodup_cons.mpr ⟨hmem, h.nodup⟩
    have hknown : name :: chain.names ⊆ table.names := List.cons_subset.mpr ⟨hname, h.known⟩
    have hle := (List.subperm_of_subset hnodup hknown).length_le
    rw [LibraryTable.names, List.length_map, List.length_cons] at hle
    have hroom : (chain.depth : Int) < chain.limit := by
      have hlimit_eq := h.limit_eq
      simp only [depth]
      omega
    rw [push_of_room hmem hroom] at hpush
    simp at hpush

end IncludeChain
end TestPlan
