import TestPlan.Proofs.Files.Listing

/-!
# Disks with the same contents

Two disks hold the same when the same files with the same bytes are at the same places (`Disk.HoldsSame`). In what
order a directory has its names, which tells how they came there, does not matter: all paths lead to the same
places, are answered for alike, and the names of a directory are the same when they are sorted.
-/

namespace TestPlan

/-- Two sights show the same: one file, or the same names in some order. -/
inductive Sight.Same : Sight → Sight → Prop
  | file (bytes : List UInt8) : Same (.file bytes) (.file bytes)
  | directory {names more : List FileName} (h : names.Perm more) : Same (.directory names) (.directory more)

namespace Disk

/-- Two disks hold the same files and directories. -/
structure HoldsSame (disk other : Disk) : Prop where
  current : other.current = disk.current
  look : ∀ place, Option.Rel Sight.Same (disk.look place) (other.look place)

namespace HoldsSame

variable {disk other : Disk}

/-- At every place both have nothing, one file, or a directory with the same names. -/
theorem look_cases (h : HoldsSame disk other) (place : List FileName) :
    (disk.look place = none ∧ other.look place = none) ∨
      (∃ bytes, disk.look place = some (.file bytes) ∧ other.look place = some (.file bytes)) ∨
      ∃ names more, disk.look place = some (.directory names) ∧ other.look place = some (.directory more) ∧
        names.Perm more := by
  have hplace := h.look place
  generalize disk.look place = sight at hplace ⊢
  generalize other.look place = seen at hplace ⊢
  cases hplace with
  | none => exact .inl ⟨rfl, rfl⟩
  | some hsame =>
    cases hsame with
    | file bytes => exact .inr (.inl ⟨bytes, rfl, rfl⟩)
    | directory hperm => exact .inr (.inr ⟨_, _, rfl, rfl, hperm⟩)

/-- All paths lead to the same places. -/
theorem find (h : HoldsSame disk other) (path : Path) : other.find path = disk.find path := by
  refine find_congr h.current fun rest => walk_congr_of_mem fun place => ?_
  rcases h.look_cases place with ⟨hnone, hother⟩ | ⟨bytes, hfile, hother⟩ | ⟨names, more, hnames, hmore, hperm⟩
  · exact .inr (by simp [hnone, hother])
  · exact .inr (by simp [hfile, hother])
  · exact .inl ⟨more, names, hmore, hnames, fun _ => hperm.mem_iff.symm⟩

/-- All paths are answered for alike. -/
theorem alike (h : HoldsSame disk other) (path : Path) : Alike disk other path := by
  cases hfind : disk.find path with
  | error obstacle => exact alike_of_find_error hfind ((h.find path).trans hfind) Iff.rfl
  | ok place =>
    rcases h.look_cases place with ⟨hnone, -⟩ | ⟨bytes, hfile, hother⟩ | ⟨names, more, hnames, hmore, -⟩
    · obtain ⟨tree, -, htree⟩ := entry?_of_find_ok hfind
      simp [hnone] at htree
    · exact alike_of_find_ok hfind ((h.find path).trans hfind) hfile hother (.inl rfl)
    · exact alike_of_find_ok hfind ((h.find path).trans hfind) hnames hmore (.inr ⟨rfl, rfl⟩)

/-- The names in a directory are the same, in some order. -/
theorem namesIn_perm (h : HoldsSame disk other) (directory : Path) :
    (disk.namesIn directory).Perm (other.namesIn directory) := by
  rw [namesIn_eq, namesIn_eq, h.find]
  cases disk.find directory with
  | error obstacle => exact .refl _
  | ok place =>
    rcases h.look_cases place with ⟨hnone, hother⟩ | ⟨bytes, hfile, hother⟩ | ⟨names, more, hnames, hmore, hperm⟩
    · simp [hnone, hother]
    · simp [hfile, hother]
    · simpa [hnames, hmore] using hperm.map _

end HoldsSame
end Disk
end TestPlan
