import TestPlan.Proofs.Files.Creation

/-!
# Changes of files

Files are written and removed, and directories are made. Whatever is done at a path happens where its names lead
(`Disk.target`): what is seen there changes, its directory may gain or lose its name, and nothing else does
(`FileChange.isChangedAt`).
-/

namespace TestPlan

namespace Disk

/-- The place to which names lead one after the other if all of them lead somewhere. -/
def advance (place : List FileName) (name : Text) : List FileName :=
  if name = ".." then place.dropLast else place ++ [FileName.ofText name]

/-- The place to which a path leads, or would lead if there were something. -/
def target (disk : Disk) (path : Path) : List FileName := (disk.fromRoot path).foldl advance []

end Disk

/-- Something that is done to files. -/
inductive FileChange
  | write (path : Path) (bytes : List UInt8)
  | remove (path : Path)
  | makeDirectory (path : Path)

namespace FileChange

/-- The path at which something is done. -/
def path : FileChange → Path
  | write path _ => path
  | remove path => path
  | makeDirectory path => path

/-- The disk on which it has been done. -/
def apply (disk : Disk) : FileChange → Except FileError Disk
  | write path bytes => disk.writeBytes path bytes
  | remove path => disk.remove path
  | makeDirectory path => disk.makeDirectory path

end FileChange

/-- The disk after changes, one after the other; one that is refused changes nothing. -/
def Disk.after (disk : Disk) (changes : List FileChange) : Disk :=
  changes.foldl (fun disk change => (change.apply disk).toOption.getD disk) disk

/-- A walk that succeeds leads to where its names lead. -/
theorem walk_eq_ok {look : List FileName → Option Sight} {place found : List FileName} {rest : List Text}
    (h : walk look place rest = .ok found) : rest.foldl Disk.advance place = found := by
  induction rest generalizing place with
  | nil => exact Except.ok.inj h
  | cons name rest ih =>
    rw [walk] at h
    rw [List.foldl_cons, Disk.advance]
    split at h
    · split at h
      next hup => rw [if_pos hup, ih h]
      next hup =>
        split at h
        · simp at h
        · split at h
          · rw [if_neg hup, ih h]
          · simp at h
    · simp at h

namespace Disk

variable {disk other : Disk} {path : Path} {names parent : List FileName} {name : FileName}

/-- A path that is found leads to where its names lead. -/
theorem target_of_find_ok (h : disk.find path = .ok names) : disk.target path = names :=
  walk_eq_ok (walk_of_find_ok h)

/-- A path at which only the last name is missing would lead behind this name. -/
theorem target_of_missing (h : disk.find path = .error .missing) (hparent : disk.find path.parent = .ok parent) :
    disk.target path = parent ++ [FileName.ofText path.name] := by
  obtain ⟨hroot, -, -, hup, -⟩ := exists_missing_name h hparent
  rw [target, hroot, List.foldl_append, walk_eq_ok (walk_of_find_ok hparent), List.foldl_cons, List.foldl_nil,
    advance, if_neg hup]

/-- What two disks have in common if one comes from the other by a change of an entry of a directory. -/
structure IsChangedAt (disk other : Disk) (parent : List FileName) (name : FileName) : Prop where
  current : other.current = disk.current
  siblings : ∃ siblings more, disk.look parent = some (.directory siblings) ∧
    other.look parent = some (.directory more) ∧ ∀ sibling ≠ name, sibling ∈ siblings ↔ sibling ∈ more
  entry : ∀ inside, disk.look (parent ++ [name]) ≠ some (.directory inside)
  same : ∀ place, place ≠ parent ++ [name] → place ≠ parent → other.look place = disk.look place

/-- Writing a file changes its entry. -/
theorem IsWritten.isChangedAt {bytes : List UInt8} (h : IsWritten disk other (parent ++ [name]) bytes) :
    IsChangedAt disk other parent name := by
  obtain ⟨old, hold⟩ := h.file
  obtain ⟨siblings, hsiblings, -⟩ := exists_siblings hold
  have hparent : other.look parent = some (.directory siblings) :=
    (h.look parent).trans ((if_neg (by simp)).trans hsiblings)
  exact ⟨h.current, ⟨siblings, siblings, hsiblings, hparent, fun _ _ => Iff.rfl⟩, by simp [hold],
    fun place hplace _ => (h.look place).trans (if_neg hplace)⟩

/-- Removing a file changes its entry. -/
theorem IsRemoved.isChangedAt (h : IsRemoved disk other parent name) : IsChangedAt disk other parent name := by
  obtain ⟨old, hold⟩ := h.without.file
  obtain ⟨siblings, hsiblings, hother⟩ := h.without.directory
  exact ⟨h.current, ⟨siblings, _, hsiblings, hother, fun sibling hne => by simp [hne]⟩, by simp [hold],
    h.without.same⟩

/-- Making an entry without anything inside changes this entry. -/
theorem isChangedAt_of_new {new : FileTree} (hnew : ∀ next rest, new.look (next :: rest) = none)
    (h : disk.find path = .error .missing) (hparent : disk.find path.parent = .ok parent) :
    IsChangedAt disk { disk with tree := disk.tree.set (some new) (parent ++ [FileName.ofText path.name]) } parent
      (FileName.ofText path.name) := by
  obtain ⟨-, siblings, hsiblings, -, -, hfresh⟩ := exists_missing_name h hparent
  have hlook := FileTree.look_create hsiblings hfresh hnew
  have hnone : disk.look (parent ++ [FileName.ofText path.name]) = none := FileTree.look_of_new hsiblings hfresh
  have hother := (hlook parent).trans ((if_neg (by simp)).trans (if_pos rfl))
  exact ⟨rfl, ⟨siblings, _, hsiblings, hother, fun sibling hne => by simp [hne]⟩, by simp [hnone],
    fun place hplace hparent => (hlook place).trans ((if_neg hplace).trans (if_neg hparent))⟩

/-- What can be removed is a file that is there. -/
theorem find_of_remove (h : disk.remove path = .ok other) :
    ∃ names old, disk.find path = .ok names ∧ disk.look names = some (.file old) := by
  cases hfind : disk.find path with
  | error obstacle =>
    rw [remove, resolve, locate_of_find_error hfind] at h
    cases h
  | ok names =>
    obtain ⟨tree, hlocate, htree⟩ := locate_of_find_ok hfind
    cases tree with
    | directory entries =>
      rw [remove, resolve, hlocate] at h
      cases h
    | file old => exact ⟨names, old, rfl, look_of_at? htree⟩

/-- A directory is made where nothing is. -/
theorem created_of_makeDirectory (h : disk.makeDirectory path = .ok other) :
    ∃ parent, disk.find path = .error .missing ∧ disk.find path.parent = .ok parent ∧
      other = { disk with
        tree := disk.tree.set (some FileTree.emptyDirectory) (parent ++ [FileName.ofText path.name]) } := by
  cases hfind : disk.find path with
  | ok names =>
    obtain ⟨tree, hlocate, -⟩ := locate_of_find_ok hfind
    rw [makeDirectory, resolve, hlocate] at h
    cases h
  | error obstacle =>
    rw [makeDirectory, resolve, locate_of_find_error hfind] at h
    cases obstacle with
    | missing =>
      cases hplace : disk.place path with
      | ok names =>
        obtain ⟨parent, hparent, rfl⟩ := exists_parent_of_place hplace
        rw [hplace] at h
        exact ⟨parent, rfl, hparent, (Except.ok.inj h).symm⟩
      | error e =>
        rw [hplace] at h
        cases h
    | _ => cases h

end Disk

/-- A change that is made changes the entry to which its path leads. -/
theorem FileChange.isChangedAt {change : FileChange} {disk other : Disk} {parent : List FileName} {name : FileName}
    (h : change.apply disk = .ok other) (htarget : disk.target change.path = parent ++ [name]) :
    disk.IsChangedAt other parent name := by
  -- What is new is behind the last name of its path.
  have hcreated {path : Path} {own : List FileName} {new : FileTree} (hmissing : disk.find path = .error .missing)
      (hown : disk.find path.parent = .ok own) (hpath : disk.target path = parent ++ [name])
      (hnew : ∀ next rest, new.look (next :: rest) = none) :
      disk.IsChangedAt { disk with tree := disk.tree.set (some new) (own ++ [FileName.ofText path.name]) }
        parent name := by
    obtain ⟨rfl, hname⟩ := List.append_inj' ((Disk.target_of_missing hmissing hown).symm.trans hpath) rfl
    exact List.singleton_inj.mp hname ▸ Disk.isChangedAt_of_new hnew hmissing hown
  cases change with
  | write path bytes =>
    rcases Disk.find_of_writeBytes h with ⟨names, old, hfind, hold⟩ | hmissing
    · obtain rfl : names = parent ++ [name] := (Disk.target_of_find_ok hfind).symm.trans htarget
      obtain ⟨written, hwrite, hwritten⟩ := Disk.writeBytes_of_find_ok hfind hold bytes
      obtain rfl : written = other := Except.ok.inj (hwrite.symm.trans h)
      exact hwritten.isChangedAt
    · obtain ⟨own, hown, rfl⟩ := Disk.created_of_writeBytes hmissing h
      exact hcreated hmissing hown htarget fun _ _ => FileTree.look_file_cons bytes
  | remove path =>
    obtain ⟨names, old, hfind, hold⟩ := Disk.find_of_remove h
    obtain rfl : names = parent ++ [name] := (Disk.target_of_find_ok hfind).symm.trans htarget
    obtain ⟨without, hremove, hremoved⟩ := Disk.remove_of_find_ok hfind hold
    obtain rfl : without = other := Except.ok.inj (hremove.symm.trans h)
    exact hremoved.isChangedAt
  | makeDirectory path =>
    obtain ⟨own, hmissing, hown, rfl⟩ := Disk.created_of_makeDirectory h
    exact hcreated hmissing hown htarget fun _ _ => rfl

end TestPlan
