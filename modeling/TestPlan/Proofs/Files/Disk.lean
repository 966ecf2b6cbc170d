import TestPlan.Proofs.Files.Name
import TestPlan.Proofs.Files.Sight

/-!
# One file among others

What a disk answers about a path is told by where the path leads (`Disk.find`) and by what can be seen there.
So a disk on which one file has been written, or from which one file has been removed, answers alike about
every path that does not lead to this file (`Disk.Alike`).
-/

namespace TestPlan

/-- What keeps a path from leading anywhere on any disk. -/
def Path.obstacle? (path : Path) : Option Obstacle :=
  match FileName.unnameable? path.text with
  | some found => some (.halves found)
  | none =>
    if path.hasNull then some .nullCharacter
    else if Path.textLimit ≤ (FileName.ofText path.text).length then some .tooLong
    else none

/-- Whether a file is seen. -/
def Sight.isFile : Sight → Bool
  | file _ => true
  | directory _ => false

namespace Disk

variable {disk other : Disk} {path : Path} {names : List FileName}

/-- What can be seen on a disk where names lead straight to. -/
def look (disk : Disk) (names : List FileName) : Option Sight := disk.tree.look names

/-- The names that lead straight to where a path leads. -/
def find (disk : Disk) (path : Path) : Except Obstacle (List FileName) :=
  match path.obstacle? with
  | some obstacle => .error obstacle
  | none => walk disk.look [] (disk.fromRoot path)

/-- A path is located by following its names, unless it leads nowhere on any disk. -/
theorem locate_eq : disk.locate path =
    match path.obstacle? with
    | some obstacle => .error obstacle
    | none => (follow disk.tree [] (disk.fromRoot path)).map fun way =>
        (namesOf way, innermost disk.tree way) := by
  unfold locate Path.obstacle?
  cases FileName.unnameable? path.text with
  | some found => rfl
  | none =>
    cases path.hasNull with
    | true => rfl
    | false =>
      by_cases hlimit : Path.textLimit ≤ (FileName.ofText path.text).length
      · simp only [if_pos hlimit]
        rfl
      · simp only [if_neg hlimit]
        cases follow disk.tree [] (disk.fromRoot path) <;> rfl

/-- The root of a tree is reached without any entries. -/
theorem isWay_nil (root : FileTree) : IsWay root [] := fun outer houter => by
  rw [List.suffix_nil.mp houter]
  rfl

/-- A path that is not found is located nowhere. -/
theorem locate_of_find_error {obstacle : Obstacle} (h : disk.find path = .error obstacle) :
    disk.locate path = .error obstacle := by
  rw [locate_eq]
  rw [find] at h
  cases hobstacle : path.obstacle? with
  | some own => simpa [hobstacle] using h
  | none =>
    obtain ⟨hwalk, -⟩ := follow_eq_walk (isWay_nil disk.tree) (disk.fromRoot path)
    simp only [hobstacle] at h
    rw [show walk disk.tree.look (namesOf []) (disk.fromRoot path) = .error obstacle from h] at hwalk
    cases hfollow : follow disk.tree [] (disk.fromRoot path) with
    | error own => simpa [hfollow, Except.map] using hwalk
    | ok way => simp [hfollow, Except.map] at hwalk

/-- A path that is found is located there, and there is something. -/
theorem locate_of_find_ok (h : disk.find path = .ok names) :
    ∃ tree, disk.locate path = .ok (names, tree) ∧ FileTree.at? names disk.tree = some tree := by
  rw [locate_eq]
  rw [find] at h
  cases hobstacle : path.obstacle? with
  | some own => simp [hobstacle] at h
  | none =>
    obtain ⟨hwalk, hway⟩ := follow_eq_walk (isWay_nil disk.tree) (disk.fromRoot path)
    simp only [hobstacle] at h
    rw [show walk disk.tree.look (namesOf []) (disk.fromRoot path) = .ok names from h] at hwalk
    cases hfollow : follow disk.tree [] (disk.fromRoot path) with
    | error own => simp [hfollow, Except.map] at hwalk
    | ok way =>
      obtain rfl : namesOf way = names := by simpa [hfollow, Except.map] using hwalk
      exact ⟨innermost disk.tree way, rfl, hway way hfollow way List.suffix_rfl⟩

/-- Where names lead to a tree, the tree is seen. -/
theorem look_of_at? {tree : FileTree} (h : FileTree.at? names disk.tree = some tree) :
    disk.look names = some tree.sight := by
  rw [look, FileTree.look, h]
  rfl

/-- What is seen behind a name is seen in a directory that has the name. -/
theorem exists_siblings {parent : List FileName} {name : FileName} {sight : Sight}
    (h : disk.look (parent ++ [name]) = some sight) :
    ∃ siblings, disk.look parent = some (.directory siblings) ∧ name ∈ siblings := by
  obtain ⟨tree, htree, -⟩ := Option.map_eq_some_iff.mp h
  rw [at?_append] at htree
  obtain ⟨inside, hinside, hname⟩ := Option.bind_eq_some_iff.mp htree
  obtain ⟨entries, inner, rfl, hinner, -⟩ := FileTree.at?_cons_eq_some hname
  exact ⟨_, look_of_at? hinside, FileTree.mem_names_of_eq_some hinner⟩

/-- What is at a path that is found is seen there. -/
theorem entry?_of_find_ok (h : disk.find path = .ok names) :
    ∃ tree, disk.entry? path = .ok (some tree) ∧ disk.look names = some tree.sight := by
  obtain ⟨tree, hlocate, htree⟩ := locate_of_find_ok h
  exact ⟨tree, by rw [ entry?, hlocate], look_of_at? htree⟩

/-- There is nothing at a path that is not found; one that is too long is refused. -/
theorem entry?_of_find_error {obstacle : Obstacle} (h : disk.find path = .error obstacle) :
    disk.entry? path = if obstacle = .tooLong then .error (.nameTooLong path.text) else .ok none := by
  rw [ entry?, locate_of_find_error h]
  cases obstacle <;> rfl

/-- Whether a tree is a file can be seen from outside. -/
theorem isFile_sight (tree : FileTree) : tree.sight.isFile = tree.isFile := by cases tree <;> rfl

/-- Whether there is a file at a path that is found can be seen. -/
theorem isFile_of_find_ok {sight : Sight} (h : disk.find path = .ok names) (hlook : disk.look names = some sight) :
    disk.isFile path = .ok sight.isFile := by
  obtain ⟨tree, hentry, htree⟩ := entry?_of_find_ok h
  obtain rfl : tree.sight = sight := Option.some.inj (htree.symm.trans hlook)
  rw [isFile, hentry, isFile_sight]
  rfl

/-- Whether there is a directory at a path that is found can be seen. -/
theorem isDirectory_of_find_ok {sight : Sight} (h : disk.find path = .ok names)
    (hlook : disk.look names = some sight) : disk.isDirectory path = .ok (!sight.isFile) := by
  obtain ⟨tree, hentry, htree⟩ := entry?_of_find_ok h
  obtain rfl : tree.sight = sight := Option.some.inj (htree.symm.trans hlook)
  rw [isDirectory, hentry, isFile_sight]
  rfl

/-- The bytes of a file at a path are those that are seen. -/
theorem readBytes_of_find_ok {bytes : List UInt8} (h : disk.find path = .ok names)
    (hlook : disk.look names = some (.file bytes)) : disk.readBytes path = .ok bytes := by
  obtain ⟨tree, hlocate, htree⟩ := locate_of_find_ok h
  have hsight : tree.sight = .file bytes := Option.some.inj ((look_of_at? htree).symm.trans hlook)
  cases tree with
  | file own =>
    obtain rfl := Sight.file.inj hsight
    rw [readBytes, resolve, hlocate]
    rfl
  | directory entries => simp [FileTree.sight] at hsight

/-- The names in a directory at a path are those that are seen. -/
theorem namesIn_of_find_ok {inside : List FileName} (h : disk.find path = .ok names)
    (hlook : disk.look names = some (.directory inside)) : disk.namesIn path = inside.map FileName.text := by
  obtain ⟨tree, hlocate, htree⟩ := locate_of_find_ok h
  have hsight : tree.sight = .directory inside := Option.some.inj ((look_of_at? htree).symm.trans hlook)
  cases tree with
  | file own => simp [FileTree.sight] at hsight
  | directory entries =>
    obtain rfl := Sight.directory.inj hsight
    simp [namesIn, hlocate]

/-- A path at which there is a file is found, and a file is seen there. -/
theorem find_of_isFile (h : disk.isFile path = .ok true) :
    ∃ names bytes, disk.find path = .ok names ∧ disk.look names = some (.file bytes) := by
  cases hfind : disk.find path with
  | error obstacle =>
    rw [isFile, entry?_of_find_error hfind] at h
    split at h <;> simp [bind, Except.bind, pure, Except.pure] at h
  | ok names =>
    obtain ⟨tree, -, htree⟩ := entry?_of_find_ok hfind
    have hisFile := isFile_of_find_ok hfind htree
    cases tree with
    | file bytes => exact ⟨names, bytes, rfl, htree⟩
    | directory entries => simp [hisFile, FileTree.sight, Sight.isFile] at h

/-- A file that is there has bytes. -/
theorem exists_readBytes (h : disk.isFile path = .ok true) : ∃ bytes, disk.readBytes path = .ok bytes := by
  obtain ⟨names, bytes, hfind, hlook⟩ := find_of_isFile h
  exact ⟨bytes, readBytes_of_find_ok hfind hlook⟩

/-- Two disks answer alike about a path: what there is, and what is in it if it is a file. -/
structure Alike (disk other : Disk) (path : Path) : Prop where
  isFile : disk.isFile path = other.isFile path
  isDirectory : disk.isDirectory path = other.isDirectory path
  readBytes : disk.isFile path = .ok true → disk.readBytes path = other.readBytes path

/-- Two disks answer alike in either order. -/
theorem Alike.symm (h : Alike disk other path) : Alike other disk path :=
  ⟨h.isFile.symm, h.isDirectory.symm, fun hfile => (h.readBytes (h.isFile.trans hfile)).symm⟩

/-- What a path leads to may differ only in the names in a directory. -/
theorem alike_of_find_ok {sight seen : Sight} (h : disk.find path = .ok names) (h' : other.find path = .ok names)
    (hlook : disk.look names = some sight) (hseen : other.look names = some seen)
    (hsame : sight = seen ∨ sight.isFile = false ∧ seen.isFile = false) : Alike disk other path where
  isFile := by
    rw [isFile_of_find_ok h hlook, isFile_of_find_ok h' hseen]
    rcases hsame with rfl | ⟨hsight, hseen⟩ <;> simp [*]
  isDirectory := by
    rw [isDirectory_of_find_ok h hlook, isDirectory_of_find_ok h' hseen]
    rcases hsame with rfl | ⟨hsight, hseen⟩ <;> simp [*]
  readBytes hfile := by
    rw [isFile_of_find_ok h hlook] at hfile
    cases sight with
    | directory inside => simp [Sight.isFile] at hfile
    | file bytes =>
      rcases hsame with rfl | ⟨hsight, -⟩
      · rw [readBytes_of_find_ok h hlook, readBytes_of_find_ok h' hseen]
      · simp [Sight.isFile] at hsight

/-- A path that is not found may fail to be for different reasons, except that it is too long. -/
theorem alike_of_find_error {obstacle hurdle : Obstacle} (h : disk.find path = .error obstacle)
    (h' : other.find path = .error hurdle) (hsame : obstacle = .tooLong ↔ hurdle = .tooLong) :
    Alike disk other path := by
  have hentry : disk.entry? path = other.entry? path := by
    rw [entry?_of_find_error h, entry?_of_find_error h']
    simp only [hsame]
  have hisFile : disk.isFile path = other.isFile path := by rw [isFile, isFile, hentry]
  refine ⟨hisFile, by rw [isDirectory, isDirectory, hentry], fun hfile => ?_⟩
  obtain ⟨names, bytes, hfind, -⟩ := find_of_isFile hfile
  simp [h] at hfind

variable {file : Path} {old : List UInt8}

/-- A file is located where it is found. -/
theorem resolve_of_find_ok (h : disk.find file = .ok names) (hfile : disk.look names = some (.file old)) :
    disk.resolve file = .ok (names, .file old) ∧ FileTree.at? names disk.tree = some (.file old) := by
  obtain ⟨tree, hlocate, htree⟩ := locate_of_find_ok h
  have hsight : tree.sight = .file old := Option.some.inj ((look_of_at? htree).symm.trans hfile)
  cases tree with
  | directory entries => simp [FileTree.sight] at hsight
  | file own =>
    obtain rfl := Sight.file.inj hsight
    exact ⟨by rw [resolve, hlocate]; rfl, htree⟩

/-- The disk on which a file that is there holds these bytes. -/
structure IsWritten (disk other : Disk) (names : List FileName) (bytes : List UInt8) : Prop where
  current : other.current = disk.current
  file : ∃ old, disk.look names = some (.file old)
  look : ∀ place, other.look place = if place = names then some (.file bytes) else disk.look place

/-- The disk from which a file is gone. -/
structure IsRemoved (disk other : Disk) (parent : List FileName) (name : FileName) : Prop where
  current : other.current = disk.current
  without : IsWithout disk.look other.look parent name

/-- A file that is there can be written. -/
theorem writeBytes_of_find_ok (h : disk.find file = .ok names) (hfile : disk.look names = some (.file old))
    (bytes : List UInt8) : ∃ other, disk.writeBytes file bytes = .ok other ∧ IsWritten disk other names bytes := by
  obtain ⟨hresolve, htree⟩ := resolve_of_find_ok h hfile
  refine ⟨{ disk with tree := disk.tree.set (some (.file bytes)) names }, ?_, rfl, ⟨old, hfile⟩,
    FileTree.look_set htree bytes⟩
  rw [writeBytes, hresolve]
  rfl

/-- A file in a directory can be removed. -/
theorem remove_of_find_ok {parent : List FileName} {name : FileName}
    (h : disk.find file = .ok (parent ++ [name])) (hfile : disk.look (parent ++ [name]) = some (.file old)) :
    ∃ other, disk.remove file = .ok other ∧ IsRemoved disk other parent name := by
  obtain ⟨hresolve, htree⟩ := resolve_of_find_ok h hfile
  obtain ⟨siblings, hparent, -⟩ := exists_siblings hfile
  have hlook := FileTree.look_remove htree hparent
  have hne : parent ≠ parent ++ [name] := by simp
  refine ⟨{ disk with tree := disk.tree.set none (parent ++ [name]) }, ?_, rfl, ⟨_, hfile⟩, ?_,
    ⟨siblings, hparent, ?_⟩, fun place hplace hother => ?_⟩
  · rw [remove, hresolve]
    rfl
  · exact (hlook _).trans (if_pos rfl)
  · exact (hlook _).trans ((if_neg hne).trans (if_pos rfl))
  · exact (hlook _).trans ((if_neg hplace).trans (if_neg hother))

/-- Where a path leads depends on the walk along its names. -/
theorem find_congr_of_walk
    (h : walk other.look [] (other.fromRoot path) = walk disk.look [] (disk.fromRoot path)) :
    other.find path = disk.find path := by
  rw [find, find, h]

/-- Where a path leads depends on what can be seen and on the current directory. -/
theorem find_congr (hcurrent : other.current = disk.current)
    (hwalk : ∀ rest, walk other.look [] rest = walk disk.look [] rest) : other.find path = disk.find path :=
  find_congr_of_walk (by rw [fromRoot, fromRoot, hcurrent, hwalk])

/-- On a disk where a file is written all paths lead where they did. -/
theorem IsWritten.find {bytes : List UInt8} (h : IsWritten disk other names bytes) (path : Path) :
    other.find path = disk.find path := by
  refine find_congr h.current fun rest => walk_congr fun place inside => ?_
  obtain ⟨old, hold⟩ := h.file
  rw [h.look]
  by_cases hplace : place = names
  · simp [hplace, hold]
  · simp [hplace]

/-- All paths that do not lead to the file are answered for as before. -/
theorem IsWritten.alike {bytes : List UInt8} (h : IsWritten disk other names bytes)
    (hpath : disk.find path ≠ .ok names) : Alike disk other path := by
  cases hfind : disk.find path with
  | error obstacle => exact alike_of_find_error hfind ((h.find path).trans hfind) Iff.rfl
  | ok place =>
    obtain ⟨tree, -, htree⟩ := entry?_of_find_ok hfind
    have hplace : place ≠ names := fun heq => hpath (heq ▸ hfind)
    exact alike_of_find_ok hfind ((h.find path).trans hfind) htree
      ((h.look place).trans ((if_neg hplace).trans htree)) (.inl rfl)

variable {parent : List FileName} {name : FileName}

/-- From a disk without a file all paths that do not lead to it lead where they did, or still nowhere. -/
theorem IsRemoved.find (h : IsRemoved disk other parent name) (path : Path) :
    other.find path = disk.find path ∨ other.find path = .error .missing ∧
      (disk.find path = .ok (parent ++ [name]) ∨ disk.find path = .error .noDirectory) := by
  rw [Disk.find, Disk.find]
  cases path.obstacle? with
  | some obstacle => exact .inl rfl
  | none =>
    rw [fromRoot, fromRoot, h.current]
    exact h.without.walk (by simp)

/-- All paths that do not lead to the file are answered for as before. -/
theorem IsRemoved.alike (h : IsRemoved disk other parent name) (hpath : disk.find path ≠ .ok (parent ++ [name])) :
    Alike disk other path := by
  rcases h.find path with hfind | ⟨hmissing, hfile | hfind⟩
  · cases hown : disk.find path with
    | error obstacle => exact alike_of_find_error hown (hfind.trans hown) Iff.rfl
    | ok place =>
      obtain ⟨tree, -, htree⟩ := entry?_of_find_ok hown
      have hplace : place ≠ parent ++ [name] := fun heq => hpath (heq ▸ hown)
      by_cases hparent : place = parent
      · subst hparent
        obtain ⟨inside, hinside, hother⟩ := h.without.directory
        exact alike_of_find_ok hown (hfind.trans hown) hinside hother (.inr ⟨rfl, rfl⟩)
      · exact alike_of_find_ok hown (hfind.trans hown) htree
          ((h.without.same place hplace hparent).trans htree) (.inl rfl)
  · exact absurd hfile hpath
  · exact alike_of_find_error hfind hmissing (by simp)

end Disk
end TestPlan
