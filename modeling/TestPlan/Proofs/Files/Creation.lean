import TestPlan.Proofs.Files.Disk

/-!
# New files

What is not there may be created in a directory that is. It is seen then, its directory has one more
name, and nothing else has changed (`FileTree.look_create`). So all walks go as before, apart from those that
found nothing (`walk_mono`), and a file that has been written, new or not, is read as what was written
(`Disk.readBytes_of_writeBytes`).
-/

namespace TestPlan

namespace FileTree

variable {entries : List (FileName × FileTree)} {name other : FileName}

/-- A new entry is put behind the others. -/
theorem setEntry_of_new (h : name ∉ entries.map (·.1)) (new : FileTree) :
    setEntry name (some new) entries = entries ++ [(name, new)] := by
  rw [setEntry, if_neg]
  intro hany
  obtain ⟨entry, hentry, hname⟩ := List.any_eq_true.mp hany
  exact h (List.mem_map.mpr ⟨entry, hentry, by simpa using hname⟩)

/-- A new entry is there, and the others are as before. -/
theorem entry?_append_new (h : name ∉ entries.map (·.1)) (new : FileTree) :
    entry? other (entries ++ [(name, new)]) = if other = name then some new else entry? other entries := by
  induction entries with
  | nil =>
    rw [List.nil_append, entry?_cons]
    by_cases hother : other = name <;> simp [hother, Ne.symm]
  | cons entry rest ih =>
    obtain ⟨n, old⟩ := entry
    obtain ⟨hname, hrest⟩ := not_or.mp (mt List.mem_cons.mpr h)
    rw [List.cons_append, entry?_cons, ih hrest, entry?_cons]
    by_cases hother : n = other
    · subst hother
      simp [Ne.symm hname]
    · simp [hother]

/-- An entry without anything inside may be created in a directory: it is seen there, its directory has one more
name, and nothing else has changed. -/
theorem look_create {tree new : FileTree} {parent siblings : List FileName}
    (hparent : tree.look parent = some (.directory siblings)) (hname : name ∉ siblings)
    (hnew : ∀ next rest, new.look (next :: rest) = none) (others : List FileName) :
    (tree.set (some new) (parent ++ [name])).look others =
      if others = parent ++ [name] then some new.sight
      else if others = parent then some (.directory (siblings ++ [name])) else tree.look others := by
  induction parent generalizing tree others with
  | nil =>
    cases tree with
    | file old => simp [look, at?, sight] at hparent
    | directory entries =>
      obtain rfl : entries.map (·.1) = siblings := by simpa [look, at?, sight] using hparent
      change (directory (setEntry name (some new) entries)).look others = _
      rw [setEntry_of_new hname]
      cases others with
      | nil => simp [look, at?, sight]
      | cons other rest =>
        rw [look_cons, entry?_append_new hname, look_cons]
        by_cases hother : other = name
        · subst hother
          have hnone : entry? other entries = none := by
            rw [← Option.not_isSome_iff_eq_none, entry?_isSome_iff]
            exact hname
          cases rest with
          | nil => simp [look, at?]
          | cons next rest => simp [hnone, hnew]
        · simp [hother]
  | cons first parent ih =>
    obtain ⟨found, hfound, -⟩ := Option.map_eq_some_iff.mp hparent
    obtain ⟨entries, inner, rfl, hinner, -⟩ := at?_cons_eq_some hfound
    have hmem := mem_names_of_eq_some hinner
    rw [look_cons, hinner, Option.bind_some] at hparent
    rw [List.cons_append, set_some_cons hinner]
    cases others with
    | nil => simp [look, at?, sight, names_setEntry_some hmem]
    | cons other rest =>
      rw [look_cons, entry?_setEntry_some hmem, look_cons]
      by_cases hother : other = first
      · rw [if_pos hother, Option.bind_some, ih hparent, hother, hinner]
        simp
      · simp [hother]

/-- There is nothing in a directory at a name that it does not have. -/
theorem look_of_new {tree : FileTree} {parent siblings : List FileName}
    (hparent : tree.look parent = some (.directory siblings)) (hnew : name ∉ siblings) :
    tree.look (parent ++ [name]) = none := by
  obtain ⟨found, hfound, hsight⟩ := Option.map_eq_some_iff.mp hparent
  cases found with
  | file bytes => simp [sight] at hsight
  | directory entries =>
    obtain rfl := Sight.directory.inj hsight
    have hnone : entry? name entries = none := by
      rw [← Option.not_isSome_iff_eq_none, entry?_isSome_iff]
      exact hnew
    rw [look, Disk.at?_append, hfound]
    simp [at?, hnone]

end FileTree

/-- Walks that lead somewhere still lead there when directories have more names. -/
theorem walk_mono {look other : List FileName → Option Sight}
    (h : ∀ place names, look place = some (.directory names) →
      ∃ more, other place = some (.directory more) ∧ ∀ name ∈ names, name ∈ more)
    {place found : List FileName} {rest : List Text} (hwalk : walk look place rest = .ok found) :
    walk other place rest = .ok found := by
  induction rest generalizing place with
  | nil => exact hwalk
  | cons name rest ih =>
    rw [walk] at hwalk
    split at hwalk
    next names hnames =>
      obtain ⟨more, hmore, hsub⟩ := h place names hnames
      rw [walk, hmore]
      dsimp only
      split at hwalk
      next hup => rw [if_pos hup, ih hwalk]
      next hup =>
        rw [if_neg hup]
        split at hwalk
        · simp at hwalk
        next hlong =>
          rw [if_neg hlong]
          split at hwalk
          next hmem => rw [if_pos (hsub _ hmem), ih hwalk]
          · simp at hwalk
    · simp at hwalk

/-- What keeps a path from leading anywhere on any disk is not that something is missing. -/
theorem Path.obstacle?_ne_missing (path : Path) : path.obstacle? ≠ some .missing := by
  unfold obstacle?
  split
  · simp
  · split
    · simp
    · split <;> simp

namespace Disk

variable {disk other : Disk} {path : Path} {bytes : List UInt8}

/-- Finding a path is walking along it from the root. -/
theorem walk_of_find_ok {names : List FileName} (h : disk.find path = .ok names) :
    walk disk.look [] (disk.fromRoot path) = .ok names := by
  rw [find] at h
  split at h
  · simp at h
  · exact h

/-- The last name of a path is followed after the path before it. -/
theorem fromRoot_eq_append (disk : Disk) (h : path.names ≠ []) :
    disk.fromRoot path = disk.fromRoot path.parent ++ [path.name] := by
  have hlast : path.names = path.parent.names ++ [path.name] := by
    rw [Path.parent, Path.name, List.getLast?_eq_some_getLast h]
    exact (List.dropLast_concat_getLast h).symm
  have habsolute : path.isAbsolute = path.parent.isAbsolute := rfl
  rw [fromRoot, fromRoot, hlast, habsolute]
  split <;> simp

/-- A missing entry is missed on the walk. -/
theorem walk_of_missing (h : disk.find path = .error .missing) :
    path.obstacle? = none ∧ walk disk.look [] (disk.fromRoot path) = .error .missing := by
  rw [find] at h
  cases hobstacle : path.obstacle? with
  | none => exact ⟨rfl, by simpa [hobstacle] using h⟩
  | some obstacle =>
    obtain rfl : obstacle = .missing := by simpa [hobstacle] using h
    exact absurd hobstacle path.obstacle?_ne_missing

/-- What is missing at a path can only be its last name if there is something at the path before it. -/
theorem exists_missing_name (h : disk.find path = .error .missing) {parent : List FileName}
    (hparent : disk.find path.parent = .ok parent) :
    disk.fromRoot path = disk.fromRoot path.parent ++ [path.name] ∧
      ∃ siblings, disk.look parent = some (.directory siblings) ∧ path.name ≠ ".." ∧
        ¬ Path.nameLimit < (FileName.ofText path.name).length ∧ FileName.ofText path.name ∉ siblings := by
  have hnames : path.names ≠ [] := by
    intro hnil
    have hsame : path.parent = path := by
      obtain ⟨root, names⟩ := path
      subst hnil
      rfl
    simp [hsame, h] at hparent
  refine ⟨disk.fromRoot_eq_append hnames, ?_⟩
  have hlast := (walk_of_missing h).2
  rw [disk.fromRoot_eq_append hnames, walk_append, walk_of_find_ok hparent] at hlast
  change walk disk.look parent [path.name] = .error .missing at hlast
  rw [walk] at hlast
  split at hlast
  next siblings hsiblings =>
    refine ⟨siblings, hsiblings, ?_⟩
    split at hlast
    · simp [walk] at hlast
    next hup =>
      split at hlast
      · simp at hlast
      next hlong =>
        split at hlast
        · simp [walk] at hlast
        next hmem => exact ⟨hup, hlong, hmem⟩
  · simp at hlast

/-- A file that is created is read as what was written. -/
theorem readBytes_of_created (h : disk.find path = .error .missing) {parent : List FileName}
    (hparent : disk.find path.parent = .ok parent)
    (hother : other =
      { disk with tree := disk.tree.set (some (.file bytes)) (parent ++ [FileName.ofText path.name]) }) :
    other.readBytes path = .ok bytes := by
  obtain ⟨hroot, siblings, hsiblings, hup, hlong, hnew⟩ := exists_missing_name h hparent
  have hlook (place : List FileName) : other.look place =
      if place = parent ++ [FileName.ofText path.name] then some (.file bytes)
      else if place = parent then some (.directory (siblings ++ [FileName.ofText path.name]))
      else disk.look place := by
    subst hother
    exact FileTree.look_create hsiblings hnew (fun _ _ => FileTree.look_file_cons bytes) place
  have hgone : disk.look (parent ++ [FileName.ofText path.name]) = none := FileTree.look_of_new hsiblings hnew
  have hmono : ∀ place names, disk.look place = some (.directory names) →
      ∃ more, other.look place = some (.directory more) ∧ ∀ name ∈ names, name ∈ more := by
    intro place names hnames
    rw [hlook]
    by_cases hfile : place = parent ++ [FileName.ofText path.name]
    · simp [hfile, hgone] at hnames
    · rw [if_neg hfile]
      by_cases hplace : place = parent
      · subst hplace
        obtain rfl : siblings = names := Sight.directory.inj (Option.some.inj (hsiblings.symm.trans hnames))
        exact ⟨_, if_pos rfl, fun name hname => List.mem_append_left _ hname⟩
      · exact ⟨names, by rw [if_neg hplace, hnames], fun _ => id⟩
  have hfind : other.find path = .ok (parent ++ [FileName.ofText path.name]) := by
    have hcurrent : other.fromRoot path = disk.fromRoot path := by rw [hother]; rfl
    have hdirectory : other.look parent = some (.directory (siblings ++ [FileName.ofText path.name])) := by
      rw [hlook, if_neg (by simp), if_pos rfl]
    rw [find, (walk_of_missing h).1]
    dsimp only
    rw [hcurrent, hroot, walk_append, walk_mono hmono (walk_of_find_ok hparent)]
    change walk other.look parent [path.name] = _
    rw [walk, hdirectory]
    simp [hup, hlong, walk]
  exact readBytes_of_find_ok hfind (by rw [hlook, if_pos rfl])

/-- A new entry is made under the last name of its path, in a directory that is found. -/
theorem exists_parent_of_place {names : List FileName} (h : disk.place path = .ok names) :
    ∃ parent, disk.find path.parent = .ok parent ∧ names = parent ++ [FileName.ofText path.name] := by
  cases hparent : disk.find path.parent with
  | ok parent =>
    obtain ⟨tree, hlocate, -⟩ := locate_of_find_ok hparent
    cases tree with
    | directory entries =>
      simp only [place, hlocate] at h
      exact ⟨parent, rfl, (Except.ok.inj h).symm⟩
    | file old => simp [place, hlocate] at h
  | error hurdle => simp [place, locate_of_find_error hparent] at h

/-- A file that is missing is created by writing it, if it can be. -/
theorem created_of_writeBytes (h : disk.find path = .error .missing)
    (hwrite : disk.writeBytes path bytes = .ok other) :
    ∃ parent, disk.find path.parent = .ok parent ∧
      other = { disk with tree := disk.tree.set (some (.file bytes)) (parent ++ [FileName.ofText path.name]) } := by
  rw [writeBytes, resolve, locate_of_find_error h] at hwrite
  cases hplace : disk.place path with
  | ok names =>
    obtain ⟨parent, hparent, rfl⟩ := exists_parent_of_place hplace
    rw [hplace] at hwrite
    exact ⟨parent, hparent, (Except.ok.inj hwrite).symm⟩
  | error e =>
    rw [hplace] at hwrite
    cases hwrite

/-- What can be written is a file that is there, or it is missing. -/
theorem find_of_writeBytes (h : disk.writeBytes path bytes = .ok other) :
    (∃ names old, disk.find path = .ok names ∧ disk.look names = some (.file old)) ∨
      disk.find path = .error .missing := by
  cases hfind : disk.find path with
  | ok names =>
    obtain ⟨tree, hlocate, htree⟩ := locate_of_find_ok hfind
    cases tree with
    | directory entries =>
      rw [writeBytes, resolve, hlocate] at h
      cases h
    | file old => exact .inl ⟨names, old, rfl, look_of_at? htree⟩
  | error obstacle =>
    cases obstacle with
    | missing => exact .inr rfl
    | _ =>
      rw [writeBytes, resolve, locate_of_find_error hfind] at h
      cases h

/-- A file that has been written is read as what was written. -/
theorem readBytes_of_writeBytes (h : disk.writeBytes path bytes = .ok other) :
    other.readBytes path = .ok bytes := by
  rcases find_of_writeBytes h with ⟨names, old, hfind, hold⟩ | hmissing
  · obtain ⟨written, hwrite, hwritten⟩ := writeBytes_of_find_ok hfind hold bytes
    obtain rfl : written = other := Except.ok.inj (hwrite.symm.trans h)
    exact readBytes_of_find_ok ((hwritten.find path).trans hfind) ((hwritten.look names).trans (if_pos rfl))
  · obtain ⟨parent, hparent, hother⟩ := created_of_writeBytes hmissing h
    exact readBytes_of_created hmissing hparent hother

/-- A disk on which a file has been created is the disk before with the file. -/
theorem isRemoved_of_created (h : disk.find path = .error .missing)
    (hwrite : disk.writeBytes path bytes = .ok other) :
    ∃ parent, disk.find path.parent = .ok parent ∧ IsRemoved other disk parent (FileName.ofText path.name) := by
  obtain ⟨parent, hparent, rfl⟩ := created_of_writeBytes h hwrite
  obtain ⟨-, siblings, hsiblings, -, -, hnew⟩ := exists_missing_name h hparent
  have hlook := FileTree.look_create hsiblings hnew fun _ _ => FileTree.look_file_cons bytes
  have hne : parent ≠ parent ++ [FileName.ofText path.name] := by simp
  refine ⟨parent, hparent, rfl, ⟨bytes, (hlook _).trans (if_pos rfl)⟩, FileTree.look_of_new hsiblings hnew,
    ⟨_, (hlook _).trans ((if_neg hne).trans (if_pos rfl)), ?_⟩,
    fun place hplace hother => ((hlook place).trans ((if_neg hplace).trans (if_neg hother))).symm⟩
  have hsame : (siblings ++ [FileName.ofText path.name]).filter (· ≠ FileName.ofText path.name) = siblings := by
    have hothers : siblings.filter (· ≠ FileName.ofText path.name) = siblings :=
      List.filter_eq_self.mpr fun sibling hmem => decide_eq_true (ne_of_mem_of_not_mem hmem hnew)
    rw [List.filter_append, hothers]
    simp
  rw [hsame]
  exact hsiblings

end Disk
end TestPlan
