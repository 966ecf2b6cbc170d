import TestPlan.Project
import TestPlan.Proofs.Files.Disk

/-!
# Definition files of a directory

The definition files of a directory are listed in the order of their names, which is a linear order
(`Text.precedes_antisymm` and its companions). Writing one of them leaves the list as it is, and removing it
takes it out of the list and moves no other file (`Disk.IsWritten.definitionFiles`,
`Disk.IsRemoved.definitionFiles`).
-/

namespace TestPlan

namespace Text

/-- Of two texts one comes before the other, or they are the same. -/
theorem precedes_total (first second : Text) : (precedes first second || precedes second first) = true := by
  induction first generalizing second with
  | nil => rfl
  | cons s rest ih =>
    cases second with
    | nil => rfl
    | cons t more =>
      have hmore := ih more
      simp only [precedes, Bool.or_eq_true, Bool.and_eq_true, decide_eq_true_eq, beq_iff_eq] at hmore ⊢
      rcases Nat.lt_trichotomy s.code t.code with h | h | h
      · exact .inl (.inl h)
      · exact hmore.imp (fun hrest => .inr ⟨h, hrest⟩) fun hrest => .inr ⟨h.symm, hrest⟩
      · exact .inr (.inl h)

/-- What comes before an earlier text comes before a later one. -/
theorem precedes_trans {first second third : Text} (h : precedes first second = true)
    (h' : precedes second third = true) : precedes first third = true := by
  induction first generalizing second third with
  | nil => rfl
  | cons s rest ih =>
    cases second with
    | nil => simp [precedes] at h
    | cons t more =>
      cases third with
      | nil => simp [precedes] at h'
      | cons u others =>
        simp only [precedes, Bool.or_eq_true, Bool.and_eq_true, decide_eq_true_eq, beq_iff_eq] at h h' ⊢
        rcases h with h | ⟨h, hrest⟩ <;> rcases h' with h' | ⟨h', hmore⟩
        · exact .inl (Nat.lt_trans h h')
        · exact .inl (h' ▸ h)
        · exact .inl (h ▸ h')
        · exact .inr ⟨h.trans h', ih hrest hmore⟩

/-- Texts that come before each other are equal. -/
theorem precedes_antisymm {first second : Text} (h : precedes first second = true)
    (h' : precedes second first = true) : first = second := by
  induction first generalizing second with
  | nil =>
    cases second with
    | nil => rfl
    | cons t more => simp [precedes] at h'
  | cons s rest ih =>
    cases second with
    | nil => simp [precedes] at h
    | cons t more =>
      simp only [precedes, Bool.or_eq_true, Bool.and_eq_true, decide_eq_true_eq, beq_iff_eq] at h h'
      rcases h with h | ⟨hcode, hrest⟩ <;> rcases h' with h' | ⟨h', hmore⟩
      · exact absurd h (Nat.lt_asymm h')
      · exact absurd h' (Nat.ne_of_gt h)
      · exact absurd hcode (Nat.ne_of_gt h')
      · have hsymbol : s = t := by rw [← s.ofCode_code, hcode, t.ofCode_code]
        rw [hsymbol, ih hrest hmore]

/-- Texts that begin alike are in the order of what follows. -/
theorem precedes_append_left (front first second : Text) :
    precedes (front ++ first) (front ++ second) = precedes first second := by
  induction front with
  | nil => rfl
  | cons s rest ih => simp [precedes, ih]

/-- Sorted texts come one after the other. -/
theorem pairwise_mergeSort_precedes (texts : List Text) :
    (texts.mergeSort precedes).Pairwise fun first second => precedes first second = true :=
  @List.pairwise_mergeSort _ precedes (fun _ _ _ => precedes_trans) precedes_total texts

/-- Texts in any order are the same when they are sorted. -/
theorem mergeSort_eq_of_perm {texts others : List Text} (h : texts.Perm others) :
    texts.mergeSort precedes = others.mergeSort precedes :=
  List.Perm.eq_of_pairwise (fun _ _ _ _ => precedes_antisymm) (pairwise_mergeSort_precedes _)
    (pairwise_mergeSort_precedes _) ((List.mergeSort_perm _ _).trans (h.trans (List.mergeSort_perm _ _).symm))

/-- Sorted texts from which some are taken out are what is left, sorted. -/
theorem mergeSort_filter (keep : Text → Bool) (texts : List Text) :
    (texts.filter keep).mergeSort precedes = (texts.mergeSort precedes).filter keep :=
  List.Perm.eq_of_pairwise (fun _ _ _ _ => precedes_antisymm) (pairwise_mergeSort_precedes _)
    ((pairwise_mergeSort_precedes texts).filter keep)
    ((List.mergeSort_perm _ _).trans ((List.mergeSort_perm texts precedes).filter keep).symm)

end Text

/-- The path of an entry of a directory. -/
def Path.entry (directory : Path) (name : Text) : Path := { directory with names := directory.names ++ [name] }

namespace Disk

variable {disk other : Disk} {directory file : Path} {parent : List FileName} {inside : List FileName}

/-- Only a directory that is found has names in it. -/
theorem namesIn_eq (disk : Disk) (path : Path) : disk.namesIn path =
    match disk.find path with
    | .ok names =>
      match disk.look names with
      | some (.directory inside) => inside.map FileName.text
      | _ => []
    | .error _ => [] := by
  cases hfind : disk.find path with
  | error obstacle => rw [namesIn, locate_of_find_error hfind]
  | ok names =>
    obtain ⟨tree, hlocate, htree⟩ := locate_of_find_ok hfind
    have hlook := look_of_at? htree
    cases tree with
    | file bytes => simp only [namesIn, hlocate, hlook, FileTree.sight]
    | directory entries => rw [namesIn_of_find_ok hfind hlook]; simp only [hlook, FileTree.sight]

/-- A name in a directory is a name that is seen there. -/
theorem exists_of_mem_namesIn {text : Text} (h : text ∈ disk.namesIn directory) :
    ∃ parent inside name, disk.find directory = .ok parent ∧ disk.look parent = some (.directory inside) ∧
      text = FileName.text name := by
  rw [namesIn_eq] at h
  cases hfind : disk.find directory with
  | error obstacle => simp [hfind] at h
  | ok parent =>
    simp only [hfind] at h
    split at h
    next inside hlook =>
      obtain ⟨name, -, rfl⟩ := List.mem_map.mp h
      exact ⟨parent, inside, name, rfl, hlook, rfl⟩
    · simp at h

/-- The path of an entry is its directory's path and then its name. -/
theorem fromRoot_entry (disk : Disk) (directory : Path) (name : Text) :
    disk.fromRoot (directory.entry name) = disk.fromRoot directory ++ [name] := by
  simp only [fromRoot, Path.entry, Path.isAbsolute]
  by_cases habsolute : (directory.root != .current) = true <;> simp [habsolute]

/-- Where the path of an entry leads: through its directory, and then up or to the entry. -/
theorem walk_of_find_entry {name : Text} {names : List FileName}
    (h : disk.find (directory.entry name) = .ok names) :
    ∃ place, walk disk.look [] (disk.fromRoot directory) = .ok place ∧
      (name = ".." ∧ names = place.dropLast ∨ name ≠ ".." ∧ names = place ++ [FileName.ofText name]) := by
  rw [find] at h
  split at h
  · simp at h
  · rw [fromRoot_entry, walk_append] at h
    cases hplace : walk disk.look [] (disk.fromRoot directory) with
    | error obstacle => simp [hplace, bind, Except.bind] at h
    | ok place =>
      rw [hplace] at h
      change walk disk.look place [name] = .ok names at h
      refine ⟨place, rfl, ?_⟩
      rw [walk] at h
      split at h
      · split at h
        next hup => exact .inl ⟨hup, (Except.ok.inj h).symm⟩
        next hup =>
          split at h
          · simp at h
          · split at h
            · exact .inr ⟨hup, (Except.ok.inj h).symm⟩
            · simp at h
      · simp at h

/-- Where the path of an entry leads, once its directory is found. -/
theorem find_entry (h : disk.find directory = .ok parent) {name : Text} {names : List FileName}
    (hentry : disk.find (directory.entry name) = .ok names) :
    name = ".." ∧ names = parent.dropLast ∨ name ≠ ".." ∧ names = parent ++ [FileName.ofText name] := by
  obtain ⟨place, hplace, hcases⟩ := walk_of_find_entry hentry
  rw [find] at h
  split at h
  · simp at h
  · obtain rfl := Except.ok.inj (h.symm.trans hplace)
    exact hcases

/-- Entries of a directory that lead to one place have one name. -/
theorem ofText_eq_of_find {first second : Text} {names : List FileName} (hfirst : first ≠ "..")
    (hsecond : second ≠ "..") (h : disk.find (directory.entry first) = .ok names)
    (h' : disk.find (directory.entry second) = .ok names) : FileName.ofText first = FileName.ofText second := by
  obtain ⟨place, hplace, hcases⟩ := walk_of_find_entry h
  obtain ⟨other, hother, hcases'⟩ := walk_of_find_entry h'
  obtain rfl := Except.ok.inj (hplace.symm.trans hother)
  rcases hcases with ⟨hup, -⟩ | ⟨-, rfl⟩
  · exact absurd hup hfirst
  · rcases hcases' with ⟨hup, -⟩ | ⟨-, hsame⟩
    · exact absurd hup hsecond
    · simpa using hsame

/-- A path counts as a file exactly if there is one; a path that is too long does not. -/
theorem toOption_isFile_iff : (disk.isFile file).toOption.getD false = true ↔ disk.isFile file = .ok true := by
  cases disk.isFile file with
  | error e => simp [Except.toOption]
  | ok found => simp [Except.toOption]

/-- The way up is no definition. -/
theorem isDefinition_up (directory : Path) : isDefinition (directory.entry "..") = false := by
  have hname : (directory.entry "..").name = ".." := by simp [Path.name, Path.entry]
  rw [isDefinition, Path.suffix, hname]
  decide

/-- In whatever order the names are found, the definition files come in the order of their names. -/
theorem definitionFiles_of_perm {names : List Text} (h : (disk.namesIn directory).Perm names)
    (hordered : names.Pairwise fun first second => Text.precedes first second = true) :
    disk.definitionFiles directory = (names.map directory.entry).filter fun path =>
      (disk.isFile path).toOption.getD false && isDefinition path := by
  rw [definitionFiles, Text.mergeSort_eq_of_perm h, List.mergeSort_of_pairwise hordered]
  rfl

/-- A definition file of a directory is a file that is found there under its own name. -/
theorem exists_of_mem_definitionFiles (h : file ∈ disk.definitionFiles directory) :
    ∃ parent inside name old, disk.find directory = .ok parent ∧ disk.look parent = some (.directory inside) ∧
      file = directory.entry (FileName.text name) ∧ disk.find file = .ok (parent ++ [name]) ∧
      disk.look (parent ++ [name]) = some (.file old) := by
  obtain ⟨hpath, hfile⟩ := List.mem_filter.mp h
  obtain ⟨text, htext, rfl⟩ := List.mem_map.mp hpath
  rw [(List.mergeSort_perm _ _).mem_iff] at htext
  obtain ⟨parent, inside, name, hfind, hlook, rfl⟩ := exists_of_mem_namesIn htext
  obtain ⟨hisFile, hdefinition⟩ := Bool.and_eq_true_iff.mp hfile
  obtain ⟨names, old, hentry, hold⟩ := find_of_isFile (toOption_isFile_iff.mp hisFile)
  rcases find_entry hfind hentry with ⟨hup, -⟩ | ⟨-, rfl⟩
  · rw [hup] at hdefinition
    exact absurd ((isDefinition_up directory).symm.trans hdefinition) (by decide)
  · rw [FileName.ofText_text] at hentry hold
    exact ⟨parent, inside, name, old, hfind, hlook, rfl, hentry, hold⟩

/-- In a directory that is there its definition files are discovered. -/
theorem discover_of_isDirectory (h : disk.isDirectory directory = .ok true) (label : Text) :
    disk.discover directory label = pure (disk.definitionFiles directory) := by
  rw [discover, h]
  rfl

/-- What is discovered in a directory is its definition files. -/
theorem files_of_discover {label : Text} {files : List Path}
    (h : (disk.discover directory label).outcome = .ok files) : files = disk.definitionFiles directory := by
  rw [discover] at h
  cases hdirectory : disk.isDirectory directory with
  | error e =>
    rw [hdirectory] at h
    cases h
  | ok there =>
    rw [hdirectory] at h
    cases there with
    | true => exact (Except.ok.inj h).symm
    | false =>
      obtain rfl : [] = files := Except.ok.inj h
      have hnames : disk.namesIn directory = [] := by
        rw [namesIn_eq]
        split
        next place hplace =>
          split
          next inside hinside =>
            rw [isDirectory_of_find_ok hplace hinside] at hdirectory
            cases hdirectory
          · rfl
        · rfl
      simp [definitionFiles, hnames]

/-- Writing a file that is there makes no path a file and leaves none without one. -/
theorem IsWritten.isFile {names : List FileName} {bytes : List UInt8} (h : IsWritten disk other names bytes)
    (path : Path) : other.isFile path = disk.isFile path := by
  by_cases hpath : disk.find path = .ok names
  · obtain ⟨old, hold⟩ := h.file
    have hlook : other.look names = some (.file bytes) := (h.look names).trans (if_pos rfl)
    rw [isFile_of_find_ok ((h.find path).trans hpath) hlook, isFile_of_find_ok hpath hold]
    rfl
  · exact (h.alike hpath).isFile.symm

/-- Writing a file that is there leaves the definition files as they are. -/
theorem IsWritten.definitionFiles {names : List FileName} {bytes : List UInt8}
    (h : IsWritten disk other names bytes) (directory : Path) :
    other.definitionFiles directory = disk.definitionFiles directory := by
  have hnames : other.namesIn directory = disk.namesIn directory := by
    obtain ⟨old, hold⟩ := h.file
    rw [namesIn_eq, namesIn_eq, h.find]
    cases disk.find directory with
    | error obstacle => rfl
    | ok place =>
      simp only [h.look]
      by_cases hplace : place = names
      · simp [hplace, hold]
      · simp [hplace]
  rw [Disk.definitionFiles, Disk.definitionFiles, hnames]
  exact List.filter_congr fun path _ => by rw [h.isFile]

/-- Removing a definition file takes it out of the definition files of its directory. -/
theorem IsRemoved.definitionFiles {name : FileName} (h : IsRemoved disk other parent name)
    (hdirectory : disk.find directory = .ok parent) :
    other.definitionFiles directory =
      (disk.definitionFiles directory).filter (· ≠ directory.entry (FileName.text name)) := by
  obtain ⟨inside, hinside, hother⟩ := h.without.directory
  have hfind : other.find directory = .ok parent := by
    rcases h.find directory with hsame | ⟨-, hfile | hnone⟩
    · rw [hsame, hdirectory]
    · simp [hdirectory] at hfile
    · simp [hdirectory] at hnone
  have hnames : other.namesIn directory = (disk.namesIn directory).filter (· ≠ name.text) := by
    rw [namesIn_of_find_ok hfind hother, namesIn_of_find_ok hdirectory hinside, List.filter_map]
    refine congrArg (List.map _) (List.filter_congr fun other _ => ?_)
    simp [FileName.text_injective.eq_iff]
  -- The entries with another name are the other paths, and they are files as before.
  have hsame : ∀ text ∈ (disk.namesIn directory).mergeSort Text.precedes,
      (((other.isFile (directory.entry text)).toOption.getD false && isDefinition (directory.entry text)) &&
        decide (text ≠ name.text)) =
      (decide (directory.entry text ≠ directory.entry name.text) &&
        ((disk.isFile (directory.entry text)).toOption.getD false && isDefinition (directory.entry text))) := by
    intro text htext
    rw [(List.mergeSort_perm _ _).mem_iff, namesIn_of_find_ok hdirectory hinside] at htext
    obtain ⟨own, -, rfl⟩ := List.mem_map.mp htext
    by_cases hown : own = name
    · simp [hown]
    · have htext : own.text ≠ name.text := fun heq => hown (FileName.text_injective heq)
      have hentry : directory.entry own.text ≠ directory.entry name.text := fun heq =>
        htext (by simpa [Path.entry] using heq)
      have hpath : disk.find (directory.entry own.text) ≠ .ok (parent ++ [name]) := by
        intro hpath
        rcases find_entry hdirectory hpath with ⟨-, hup⟩ | ⟨-, hsame⟩
        · have := congrArg List.length hup
          simp at this
          omega
        · rw [FileName.ofText_text] at hsame
          exact hown (by simpa using hsame.symm)
      simp [htext, hentry, (h.alike hpath).isFile]
  rw [Disk.definitionFiles, Disk.definitionFiles, hnames, Text.mergeSort_filter]
  simp only [List.filter_map, List.filter_filter]
  exact congrArg (List.map _) (List.filter_congr hsame)

/-- Removing a file leaves the definition files of the other directories as they are. -/
theorem IsRemoved.definitionFiles_elsewhere {name : FileName} (h : IsRemoved disk other parent name)
    (hdirectory : disk.find directory ≠ .ok parent) :
    other.definitionFiles directory = disk.definitionFiles directory := by
  have hnames : other.namesIn directory = disk.namesIn directory := by
    obtain ⟨bytes, hfile⟩ := h.without.file
    rw [namesIn_eq, namesIn_eq]
    rcases h.find directory with hfind | ⟨hmissing, hfind | hfind⟩
    · rw [hfind]
      cases hplace : disk.find directory with
      | error obstacle => rfl
      | ok place =>
        by_cases hsame : place = parent ++ [name]
        · simp [hsame, hfile, show other.look (parent ++ [name]) = none from h.without.gone]
        · have hparent : place ≠ parent := fun heq => hdirectory (heq ▸ hplace)
          simp [show other.look place = disk.look place from h.without.same place hsame hparent]
    · simp [hmissing, hfind, hfile]
    · simp [hmissing, hfind]
  rw [Disk.definitionFiles, Disk.definitionFiles, hnames]
  refine List.filter_congr fun path hpath => ?_
  obtain ⟨text, htext, rfl⟩ := List.mem_map.mp hpath
  rw [(List.mergeSort_perm _ _).mem_iff] at htext
  obtain ⟨place, inside, own, hfind, -, rfl⟩ := exists_of_mem_namesIn htext
  change
    ((other.isFile (directory.entry own.text)).toOption.getD false && isDefinition (directory.entry own.text)) =
    ((disk.isFile (directory.entry own.text)).toOption.getD false && isDefinition (directory.entry own.text))
  by_cases hentry : disk.find (directory.entry own.text) = .ok (parent ++ [name])
  · rcases find_entry hfind hentry with ⟨hup, -⟩ | ⟨-, hsame⟩
    · rw [hup, isDefinition_up, Bool.and_false, Bool.and_false]
    · exact absurd (hfind.trans (congrArg Except.ok (List.append_inj_left' hsame rfl).symm)) hdirectory
  · rw [(h.alike hentry).isFile]

end Disk
end TestPlan
