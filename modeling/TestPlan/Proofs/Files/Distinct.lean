import Mathlib.Data.List.Nodup
import TestPlan.Proofs.Files.Creation
import TestPlan.Proofs.Files.Listing

/-!
# Distinct names

No directory has two entries with one name. Everything that is done to a disk puts an entry in the place of
another, behind the others, or takes one away, so it stays like this (`FileTree.NamesDistinct.set`). The
definition files of a directory are then listed strictly in the order of their names
(`Disk.NamesDistinct.definitionFiles_ordered`).
-/

namespace TestPlan

/-- A text comes before another one in the order of texts. -/
def Text.Before (first second : Text) : Prop := precedes first second = true ∧ first ≠ second

/-- Sorted texts that are distinct come one before the other. -/
theorem Text.before_mergeSort {texts : List Text} (h : texts.Nodup) : (texts.mergeSort precedes).Pairwise Before :=
  (pairwise_mergeSort_precedes texts).and ((List.mergeSort_perm _ _).nodup_iff.mpr h)

namespace FileTree

/-- No directory of a tree has two entries with one name. -/
def NamesDistinct (tree : FileTree) : Prop :=
  ∀ place inside, tree.look place = some (.directory inside) → inside.Nodup

variable {tree : FileTree} {entries : List (FileName × FileTree)} {name : FileName} {entry : Option FileTree}

/-- A file has no names in it. -/
theorem namesDistinct_file (bytes : List UInt8) : (file bytes).NamesDistinct := by
  intro place inside h
  cases place <;> simp [look, at?, sight] at h

/-- A directory has distinct names throughout if its own names are distinct and its entries have. -/
theorem namesDistinct_directory_iff : (directory entries).NamesDistinct ↔
    (entries.map (·.1)).Nodup ∧ ∀ name inner, entry? name entries = some inner → inner.NamesDistinct := by
  constructor
  · intro h
    refine ⟨h [] _ rfl, fun name inner hinner place inside hinside => h (name :: place) inside ?_⟩
    rw [look_cons, hinner, Option.bind_some, hinside]
  · rintro ⟨hown, hinner⟩ place inside hinside
    cases place with
    | nil =>
      obtain rfl : entries.map (·.1) = inside := by simpa [look, at?, sight] using hinside
      exact hown
    | cons name rest =>
      rw [look_cons] at hinside
      obtain ⟨inner, hentry, hinside⟩ := Option.bind_eq_some_iff.mp hinside
      exact hinner name inner hentry rest inside hinside

/-- Entries with distinct names throughout make a directory with distinct names throughout. -/
theorem namesDistinct_directory (hown : (entries.map (·.1)).Nodup) (h : ∀ entry ∈ entries, entry.2.NamesDistinct) :
    (directory entries).NamesDistinct := by
  refine namesDistinct_directory_iff.mpr ⟨hown, fun name inner hinner => ?_⟩
  obtain ⟨entry, hentry, rfl⟩ := Option.map_eq_some_iff.mp hinner
  exact h entry (List.mem_of_find?_eq_some hentry)

/-- Setting one entry of a directory leaves its names distinct. -/
theorem NamesDistinct.setEntry (h : (directory entries).NamesDistinct)
    (hentry : ∀ new ∈ entry, new.NamesDistinct) : (directory (setEntry name entry entries)).NamesDistinct := by
  obtain ⟨hown, hinner⟩ := namesDistinct_directory_iff.mp h
  rw [namesDistinct_directory_iff]
  cases entry with
  | none =>
    refine ⟨names_setEntry_none ▸ hown.filter _, fun other inner hother => ?_⟩
    rw [entry?_setEntry_none] at hother
    split at hother
    · simp at hother
    · exact hinner other inner hother
  | some new =>
    have hnew := hentry new rfl
    by_cases hmem : name ∈ entries.map (·.1)
    · refine ⟨(names_setEntry_some hmem new).symm ▸ hown, fun other inner hother => ?_⟩
      rw [entry?_setEntry_some hmem] at hother
      split at hother
      · exact Option.some.inj hother ▸ hnew
      · exact hinner other inner hother
    · rw [setEntry_of_new hmem]
      refine ⟨?_, fun other inner hother => ?_⟩
      · rw [List.map_append, List.map_singleton]
        exact List.nodup_append'.mpr ⟨hown, List.nodup_singleton _, by simpa using hmem⟩
      · rw [entry?_append_new hmem] at hother
        split at hother
        · exact Option.some.inj hother ▸ hnew
        · exact hinner other inner hother

/-- Setting an entry of a tree leaves its names distinct. -/
theorem NamesDistinct.set (h : tree.NamesDistinct) (hentry : ∀ new ∈ entry, new.NamesDistinct)
    (names : List FileName) : (tree.set entry names).NamesDistinct := by
  induction names generalizing tree with
  | nil =>
    cases entry with
    | none => exact h
    | some new => exact hentry new rfl
  | cons name rest ih =>
    cases tree with
    | file bytes => exact namesDistinct_file bytes
    | directory entries =>
      cases rest with
      | nil => exact h.setEntry hentry
      | cons next rest =>
        simp only [FileTree.set]
        cases hinner : entry? name entries with
        | none => exact h
        | some inner =>
          refine h.setEntry fun new hnew => ?_
          obtain rfl := Option.some.inj hnew
          exact ih ((namesDistinct_directory_iff.mp h).2 name inner hinner)

end FileTree

namespace Disk

variable {disk other : Disk} {path : Path} {bytes : List UInt8}

/-- No directory of a disk has two entries with one name. -/
def NamesDistinct (disk : Disk) : Prop := disk.tree.NamesDistinct

/-- Writing a file leaves the names distinct. -/
theorem NamesDistinct.writeBytes (h : disk.NamesDistinct) (hwrite : disk.writeBytes path bytes = .ok other) :
    other.NamesDistinct := by
  have hset (names : List FileName) : (disk.tree.set (some (.file bytes)) names).NamesDistinct :=
    FileTree.NamesDistinct.set h (fun new hnew => Option.some.inj hnew ▸ FileTree.namesDistinct_file bytes) names
  unfold Disk.writeBytes at hwrite
  dsimp only at hwrite
  split at hwrite
  · cases hwrite
  · obtain rfl := Except.ok.inj hwrite
    exact hset _
  · cases hplace : disk.place path with
    | error e =>
      rw [hplace] at hwrite
      cases hwrite
    | ok names =>
      rw [hplace] at hwrite
      obtain rfl := Except.ok.inj hwrite
      exact hset names
  · cases hwrite

/-- Removing a file leaves the names distinct. -/
theorem NamesDistinct.remove (h : disk.NamesDistinct) (hremove : disk.remove path = .ok other) :
    other.NamesDistinct := by
  unfold Disk.remove at hremove
  split at hremove
  · cases hremove
  · obtain rfl := Except.ok.inj hremove
    exact FileTree.NamesDistinct.set h (by simp) _
  · cases hremove

/-- Making a directory leaves the names distinct. -/
theorem NamesDistinct.makeDirectory (h : disk.NamesDistinct) (hmake : disk.makeDirectory path = .ok other) :
    other.NamesDistinct := by
  have hempty : FileTree.emptyDirectory.NamesDistinct :=
    FileTree.namesDistinct_directory_iff.mpr ⟨List.nodup_nil, by simp [FileTree.entry?]⟩
  unfold Disk.makeDirectory at hmake
  split at hmake
  · cases hmake
  · cases hplace : disk.place path with
    | error e =>
      rw [hplace] at hmake
      cases hmake
    | ok names =>
      rw [hplace] at hmake
      obtain rfl := Except.ok.inj hmake
      exact FileTree.NamesDistinct.set h (fun new hnew => Option.some.inj hnew ▸ hempty) names
  · cases hmake

/-- A file lies directly in a directory and has a suffix of definitions. -/
structure HasDefinition (disk : Disk) (directory file : Path) : Prop where
  listed : ∃ name ∈ disk.namesIn directory, file = directory.entry name
  isFile : disk.isFile file = .ok true
  suffix : file.suffix = ".yml" ∨ file.suffix = ".yaml"

/-- The definition files of a directory are the files in it that have such a suffix. -/
theorem mem_definitionFiles_iff {directory file : Path} :
    file ∈ disk.definitionFiles directory ↔ disk.HasDefinition directory file := by
  rw [definitionFiles, List.mem_filter, Bool.and_eq_true, toOption_isFile_iff, isDefinition, Bool.or_eq_true,
    beq_iff_eq, beq_iff_eq]
  constructor
  · rintro ⟨hmem, hfile, hsuffix⟩
    obtain ⟨name, hname, rfl⟩ := List.mem_map.mp hmem
    exact ⟨⟨name, (List.mergeSort_perm _ _).mem_iff.mp hname, rfl⟩, hfile, hsuffix⟩
  · rintro ⟨⟨name, hname, rfl⟩, hfile, hsuffix⟩
    exact ⟨List.mem_map.mpr ⟨name, (List.mergeSort_perm _ _).mem_iff.mpr hname, rfl⟩, hfile, hsuffix⟩

/-- The definition files of a directory come strictly in the order of their names. -/
theorem NamesDistinct.definitionFiles_ordered (h : disk.NamesDistinct) (directory : Path) :
    ((disk.definitionFiles directory).map Path.name).Pairwise Text.Before := by
  have hnodup : (disk.namesIn directory).Nodup := by
    rw [namesIn_eq]
    split
    · split
      next inside hinside => exact List.Nodup.map FileName.text_injective (h _ _ hinside)
      · exact List.nodup_nil
    · exact List.nodup_nil
  have hname (name : Text) : (directory.entry name).name = name := by simp [Path.name, Path.entry]
  have hlisted : ((disk.definitionFiles directory).map Path.name).Sublist
      ((disk.namesIn directory).mergeSort Text.precedes) := by
    have hnames : (((disk.namesIn directory).mergeSort Text.precedes).map directory.entry).map Path.name =
        (disk.namesIn directory).mergeSort Text.precedes := by
      rw [List.map_map]
      exact (List.map_congr_left fun name _ => hname name).trans (List.map_id _)
    have hfiles := (List.filter_sublist
      (p := fun path => (disk.isFile path).toOption.getD false && isDefinition path)
      (l := ((disk.namesIn directory).mergeSort Text.precedes).map directory.entry)).map Path.name
    rwa [hnames] at hfiles
  exact (Text.before_mergeSort hnodup).sublist hlisted

end Disk
end TestPlan
