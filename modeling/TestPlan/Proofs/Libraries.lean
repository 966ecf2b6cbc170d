import Mathlib.Data.List.Induction
import TestPlan.Proofs.Files.Distinct
import TestPlan.Proofs.Files.Path
import TestPlan.Proofs.Isolation.Opening
import TestPlan.Proofs.Libraries.Content
import TestPlan.Proofs.Yaml.Hexadecimal

/-!
# The libraries of a directory

A table of libraries is written one library after the other: under each name it has the library that came last, and
the names come in the order in which they came first (`LibraryTable.get?_putAll`, `LibraryTable.names_putAll`). What
is written into the table of a directory are the libraries that its definition files hold, in the order of the files
(`LibraryTable.addFiles_eq`), so a table of them is told by the files alone (`LibraryTable.IsTableOf`), and a file
that holds none can come and go (`LibraryTable.load_of_isRemoved`). The exception is a file with an integer too long
to be written, where it would have to be written: loading ends there (`LibraryTable.addFiles_of_failure`).
-/

namespace TestPlan

namespace LibraryTable

variable {disk : Disk} {file : Path} {table : LibraryTable}

/-- After a library has been put into a table, it is found under its name, and the others as before. -/
theorem get?_put (table : LibraryTable) (library : StepLibrary) (name : Text) :
    (table.put library).get? name = if library.name = name then some library else table.get? name := by
  induction table with
  | nil => by_cases hname : library.name = name <;> simp [put, get?, hname]
  | cons other rest ih =>
    rw [put]
    by_cases hsame : other.name = library.name
    · by_cases hname : library.name = name <;> simp [get?, hsame, hname]
    · rw [if_neg hsame]
      by_cases hother : other.name = name
      · have hlibrary : library.name ≠ name := fun heq => hsame (hother.trans heq.symm)
        simp [get?, hother, hlibrary]
      · simpa [get?, hother] using ih

/-- Putting a library into a table adds its name behind the others, if it is new. -/
theorem names_put (table : LibraryTable) (library : StepLibrary) :
    (table.put library).names =
      if library.name ∈ table.names then table.names else table.names ++ [library.name] := by
  induction table with
  | nil => simp [put, names]
  | cons other rest ih =>
    rw [put]
    by_cases hsame : other.name = library.name
    · simp [names, hsame]
    · rw [if_neg hsame]
      simp only [names, List.map_cons, List.mem_cons] at ih ⊢
      rw [ih]
      by_cases hmem : library.name ∈ rest.map StepLibrary.name <;> simp [hmem, Ne.symm hsame]

/-- Put libraries into a table, one after the other. -/
def putAll (table : LibraryTable) (libraries : List StepLibrary) : LibraryTable :=
  libraries.foldl (fun table library => table.put library) table

/-- Under a name there is the last library of that name. -/
theorem get?_putAll (libraries : List StepLibrary) (name : Text) :
    (putAll [] libraries).get? name = libraries.reverse.find? fun library => library.name == name := by
  induction libraries using List.reverseRecOn with
  | nil => rfl
  | append_singleton front library ih =>
    rw [putAll, List.foldl_append, List.foldl_cons, List.foldl_nil, get?_put, List.reverse_append,
      List.reverse_singleton, List.singleton_append, List.find?_cons, ← ih, putAll]
    by_cases hname : library.name = name
    · simp [hname]
    · rw [if_neg hname, beq_eq_false_iff_ne.mpr hname]

/-- The names are in the order in which they came first. -/
theorem names_putAll (libraries : List StepLibrary) :
    (putAll [] libraries).names = (libraries.map StepLibrary.name).eraseDups := by
  induction libraries using List.reverseRecOn with
  | nil => rfl
  | append_singleton front library ih =>
    rw [putAll, List.foldl_append, List.foldl_cons, List.foldl_nil, names_put, ← putAll, ih, List.map_append,
      List.map_singleton, List.eraseDups_append, List.removeAll, List.filter_cons, List.filter_nil]
    by_cases hmem : library.name ∈ front.map StepLibrary.name
    · rw [if_pos (List.mem_eraseDups.mpr hmem), if_neg (by simpa using hmem), List.eraseDups_nil, List.append_nil]
    · rw [if_neg (mt List.mem_eraseDups.mp hmem), if_pos (by simpa using hmem)]
      rfl

/-- What is reported about a file that cannot be used. -/
def complaint (file : Path) (reason : Text) : Message :=
  ⟨.error, "Error loading step library " ++ file.name ++ ": " ++ reason⟩

section Loading

variable [Runtime]

/-- The library in a file is put into the table, and nothing else is. -/
theorem addFile_eq (disk : Disk) (table : LibraryTable) (file : Path) : addFile disk table file =
    ⟨((contentOf disk file).reason?.map (complaint file)).toList,
      match (contentOf disk file).failure? with
      | some e => .error e
      | none => .ok (putAll table (contentOf disk file).library?.toList)⟩ := by
  rw [addFile, contentOf]
  cases hload : loadFile disk file with
  | ok found => cases found <;> rfl
  | error failure =>
    cases failure with
    | definition e => cases e <;> rfl
    | _ => rfl

/-- The libraries of files are put into the table in the order of the files, and what cannot be used is reported in
that order. -/
theorem addFiles_eq {files : List Path} (h : ∀ file ∈ files, (contentOf disk file).failure? = none)
    (table : LibraryTable) : addFiles disk table files =
      ⟨files.filterMap fun file => (contentOf disk file).reason?.map (complaint file),
        .ok (putAll table (files.filterMap fun file => (contentOf disk file).library?))⟩ := by
  induction files generalizing table with
  | nil => rfl
  | cons file rest ih =>
    obtain ⟨hfile, hrest⟩ := List.forall_mem_cons.mp h
    have hadd : (addFile disk table file).outcome = .ok (putAll table (contentOf disk file).library?.toList) := by
      rw [addFile_eq, hfile]
    rw [addFiles, Run.bind_of_ok hadd, ih hrest, addFile_eq, List.filterMap_cons, List.filterMap_cons, putAll,
      putAll]
    cases (contentOf disk file).library? <;> cases (contentOf disk file).reason? <;> rfl

/-- Loading ends at the first file that makes it fail. -/
theorem addFiles_of_failure {front : List Path} {e : Failure}
    (h : ∀ other ∈ front, (contentOf disk other).failure? = none) (hfile : contentOf disk file = .failure e)
    (back : List Path) (table : LibraryTable) : addFiles disk table (front ++ file :: back) =
      ⟨front.filterMap fun other => (contentOf disk other).reason?.map (complaint other), .error e⟩ := by
  induction front generalizing table with
  | nil =>
    have hadd : (addFile disk table file).outcome = .error e := by rw [addFile_eq, hfile]; rfl
    rw [List.nil_append, addFiles, Run.bind_of_error hadd, addFile_eq, hfile]
    rfl
  | cons first rest ih =>
    obtain ⟨hfirst, hrest⟩ := List.forall_mem_cons.mp h
    have hadd : (addFile disk table first).outcome = .ok (putAll table (contentOf disk first).library?.toList) := by
      rw [addFile_eq, hfirst]
    rw [List.cons_append, addFiles, Run.bind_of_ok hadd, ih hrest, addFile_eq, List.filterMap_cons]
    cases (contentOf disk first).reason? <;> rfl

/-- A table has the libraries that files hold, under the names of the files: of several with one name the last, in
the order of the first. -/
structure IsTableOf (disk : Disk) (files : List Path) (table : LibraryTable) : Prop where
  mem_names_iff : ∀ name, name ∈ table.names ↔ ∃ file ∈ files, file.stem = name ∧ HoldsValid disk file
  get?_eq_some_iff : ∀ name library, table.get? name = some library ↔
    ∃ front file back, files = front ++ file :: back ∧ file.stem = name ∧ HoldsLibrary disk file library ∧
      ∀ other ∈ back, other.stem = name → ¬ HoldsValid disk other
  ordered : ∃ loadable : List Path, loadable.Sublist files ∧
    (∀ file ∈ files, file ∈ loadable ↔ HoldsValid disk file) ∧ table.names = (loadable.map Path.stem).eraseDups

/-- The messages are one for each unusable file, in the order of the files. -/
def Complains (disk : Disk) (files : List Path) (log : List Message) : Prop :=
  ∃ refused : List (Path × Text), (refused.map Prod.fst).Sublist files ∧
    (∀ file ∈ files, ∀ reason, (file, reason) ∈ refused ↔ IsUnusable disk file reason) ∧
    log = refused.map fun (file, reason) => complaint file reason

section Table

variable {files : List Path}

/-- The table that is loaded from files has the libraries that they hold. -/
theorem isTableOf_putAll (h : ∀ file ∈ files, IsTractable disk file) :
    IsTableOf disk files (putAll [] (files.filterMap fun file => (contentOf disk file).library?)) where
  mem_names_iff name := by
    rw [names_putAll, List.mem_eraseDups, List.mem_map]
    constructor
    · rintro ⟨library, hlibrary, rfl⟩
      obtain ⟨file, hfile, hcontent⟩ := List.mem_filterMap.mp hlibrary
      have hholds := (h file hfile).library?_eq_some_iff.mp hcontent
      exact ⟨file, hfile, hholds.name_eq.symm, (h file hfile).holdsValid_iff.mpr ⟨library, hholds⟩⟩
    · rintro ⟨file, hfile, rfl, hvalid⟩
      obtain ⟨library, hholds⟩ := (h file hfile).holdsValid_iff.mp hvalid
      have hcontent := (h file hfile).library?_eq_some_iff.mpr hholds
      exact ⟨library, List.mem_filterMap.mpr ⟨file, hfile, hcontent⟩, hholds.name_eq⟩
  get?_eq_some_iff name library := by
    -- The last file with the name is the first of the files from the back.
    rw [get?_putAll, ← List.filterMap_reverse, List.find?_filterMap, Option.bind_eq_some_iff]
    simp only [List.find?_eq_some_iff_append]
    constructor
    · rintro ⟨file, ⟨hnamed, later, earlier, hsplit, hlater⟩, hcontent⟩
      have hfiles : files = earlier.reverse ++ file :: later.reverse := by
        rw [← List.reverse_reverse files, hsplit]
        simp
      have hmem : file ∈ files := hfiles ▸ List.mem_append_right _ List.mem_cons_self
      refine ⟨earlier.reverse, file, later.reverse, hfiles, ((h file hmem).isNamed_iff.mp hnamed).1,
        (h file hmem).library?_eq_some_iff.mp hcontent, fun other hother hstem hvalid => ?_⟩
      have hotherMem : other ∈ files := hfiles ▸ List.mem_append_right _ (List.mem_cons_of_mem _ hother)
      have hotherNamed := (h other hotherMem).isNamed_iff.mpr ⟨hstem, hvalid⟩
      have hnot := hlater other (List.mem_reverse.mp hother)
      rw [Bool.not_eq_true'] at hnot
      exact absurd (hotherNamed.symm.trans hnot) (by decide)
    · rintro ⟨front, file, back, rfl, hstem, hholds, hback⟩
      have htractable := h file (List.mem_append_right _ List.mem_cons_self)
      refine ⟨file, ⟨htractable.isNamed_iff.mpr ⟨hstem, htractable.holdsValid_iff.mpr ⟨library, hholds⟩⟩,
        back.reverse, front.reverse, by simp, fun other hother => ?_⟩, htractable.library?_eq_some_iff.mpr hholds⟩
      have hmem : other ∈ back := List.mem_reverse.mp hother
      have hotherTractable := h other (List.mem_append_right _ (List.mem_cons_of_mem _ hmem))
      rw [Bool.not_eq_true', Bool.eq_false_iff]
      intro hnamed
      obtain ⟨hsame, hvalid⟩ := hotherTractable.isNamed_iff.mp hnamed
      exact hback other hmem hsame hvalid
  ordered := by
    refine ⟨files.filter fun file => (contentOf disk file).library?.isSome, List.filter_sublist,
      fun file hfile => ?_, ?_⟩
    · rw [List.mem_filter, and_iff_right hfile, Option.isSome_iff_exists, (h file hfile).holdsValid_iff]
      simp only [(h file hfile).library?_eq_some_iff]
    · rw [names_putAll, ← List.filterMap_eq_filter, List.map_filterMap, List.map_filterMap]
      refine congrArg List.eraseDups (List.filterMap_congr fun file hfile => ?_)
      cases hcontent : (contentOf disk file).library? with
      | none => simp [Option.guard, hcontent]
      | some library => simp [Option.guard, hcontent, ((h file hfile).library?_eq_some_iff.mp hcontent).name_eq]

/-- What is reported in loading files is a complaint about each that is unusable. -/
theorem complains_filterMap (h : ∀ file ∈ files, IsTractable disk file) :
    Complains disk files (files.filterMap fun file => (contentOf disk file).reason?.map (complaint file)) := by
  refine ⟨files.filterMap fun file => (contentOf disk file).reason?.map (file, ·), ?_,
    fun file hfile reason => ?_, ?_⟩
  · have hfirst : (files.filterMap fun file => (contentOf disk file).reason?.map (file, ·)).map Prod.fst =
        files.filter fun file => (contentOf disk file).reason?.isSome := by
      rw [← List.filterMap_eq_filter, List.map_filterMap]
      refine List.filterMap_congr fun file _ => ?_
      cases hcontent : (contentOf disk file).reason? <;> simp [Option.guard, hcontent]
    rw [hfirst]
    exact List.filter_sublist
  · rw [List.mem_filterMap, ← (h file hfile).reason?_eq_some_iff]
    constructor
    · rintro ⟨other, -, hother⟩
      obtain ⟨own, hown, hsame⟩ := Option.map_eq_some_iff.mp hother
      obtain ⟨rfl, rfl⟩ := Prod.mk.inj hsame
      exact hown
    · intro hreason
      exact ⟨file, hfile, by rw [hreason]; rfl⟩
  · rw [List.map_filterMap]
    exact List.filterMap_congr fun file _ => by simp [Option.map_map, Function.comp_def]

end Table

/-- Under its stem there is the library of a file with the suffix `.yml`, and that of a file with the other suffix
if no file with the suffix `.yml` takes its place. -/
theorem IsTableOf.get?_eq_some {files : List Path} {library : StepLibrary} (h : IsTableOf disk files table)
    (hordered : (files.map Path.name).Pairwise Text.Before)
    (hsuffix : ∀ file ∈ files, file.suffix = ".yml" ∨ file.suffix = ".yaml") (hfile : file ∈ files)
    (hlibrary : HoldsLibrary disk file library)
    (hlast : file.suffix = ".yml" ∨
      ∀ other ∈ files, other.stem = file.stem → other.suffix = ".yml" → ¬ HoldsValid disk other) :
    table.get? file.stem = some library := by
  obtain ⟨front, back, rfl⟩ := List.append_of_mem hfile
  refine (h.get?_eq_some_iff _ _).mpr ⟨front, file, back, rfl, rfl, hlibrary, fun other hother hstem hvalid => ?_⟩
  have hmem : other ∈ front ++ file :: back := List.mem_append_right _ (List.mem_cons_of_mem _ hother)
  rw [List.map_append, List.map_cons] at hordered
  have hbefore : Text.Before file.name other.name :=
    (List.pairwise_cons.mp (List.pairwise_append.mp hordered).2.1).1 _ (List.mem_map_of_mem hother)
  -- The two names differ in their suffixes only, and `.yaml` comes before `.yml`.
  rw [← file.stem_append_suffix, ← other.stem_append_suffix, hstem] at hbefore
  obtain ⟨hprecedes, hne⟩ := hbefore
  rw [Text.precedes_append_left] at hprecedes
  rcases hsuffix file hfile with hown | hown <;> rcases hsuffix other hmem with hyml | hyaml
  · exact hne (by rw [hown, hyml])
  · rw [hown, hyaml] at hprecedes
    exact absurd hprecedes (by decide)
  · rcases hlast with hlast | hlast
    · exact absurd (hown.symm.trans hlast) (by decide)
    · exact hlast other hmem hstem hyml hvalid
  · exact hne (by rw [hown, hyaml])

section Directory

variable {directory : Path} {without other : Disk} {parent : List FileName} {name : FileName}

/-- The libraries of a directory that is there are those of its definition files. -/
theorem load_of_isDirectory (h : disk.isDirectory directory = .ok true) :
    load disk directory = addFiles disk [] (disk.definitionFiles directory) := by
  rw [load, Disk.discover_of_isDirectory h]
  rfl

/-- A file that holds no library and does not make loading fail may be left out. -/
theorem addFiles_skip (hfailure : (contentOf disk file).failure? = none)
    (hlibrary : (contentOf disk file).library? = none) (files : List Path) (table : LibraryTable) :
    (addFiles disk table (files.filter (· ≠ file))).outcome = (addFiles disk table files).outcome := by
  induction files generalizing table with
  | nil => rfl
  | cons own rest ih =>
    by_cases hown : own = file
    · have hadd : (addFile disk table file).outcome = .ok table := by
        rw [addFile_eq, hfailure, hlibrary]
        rfl
      rw [List.filter_cons_of_neg (by simpa using hown), ih, hown, addFiles, Run.bind_of_ok hadd]
    · rw [List.filter_cons_of_pos (by simpa using hown), addFiles, addFiles]
      cases hadd : (addFile disk table own).outcome with
      | error e => rw [Run.bind_of_error hadd, Run.bind_of_error hadd]
      | ok added =>
        rw [Run.bind_of_ok hadd, Run.bind_of_ok hadd]
        exact ih added

/-- Without a file that holds no library the table is the same. -/
theorem load_of_isRemoved (h : Disk.IsRemoved disk without parent name)
    (hdirectory : disk.find directory = .ok parent)
    (hfailure : (contentOf disk (directory.entry name.text)).failure? = none)
    (hlibrary : (contentOf disk (directory.entry name.text)).library? = none) :
    (load without directory).outcome = (load disk directory).outcome := by
  have hthere : disk.isDirectory directory = .ok true := by
    obtain ⟨inside, hinside, -⟩ := h.without.directory
    exact Disk.isDirectory_of_find_ok hdirectory hinside
  have hstill : without.isDirectory directory = .ok true := by
    rw [← (h.alike (by simp [hdirectory])).isDirectory, hthere]
  have hfiles := h.definitionFiles hdirectory
  have htexts : ∀ file ∈ without.definitionFiles directory, without.readText file = disk.readText file := by
    intro file hfile
    rw [hfiles, List.mem_filter, decide_eq_true_eq] at hfile
    obtain ⟨hmem, hother⟩ := hfile
    obtain ⟨place, inside, own, old, hplace, -, hentry, hfind, -⟩ := Disk.exists_of_mem_definitionFiles hmem
    obtain rfl : parent = place := Except.ok.inj (hdirectory.symm.trans hplace)
    have hpath : disk.find file ≠ .ok (parent ++ [name]) := by
      intro hsame
      rw [hfind, Except.ok.injEq, List.append_cancel_left_eq, List.singleton_inj] at hsame
      exact hother (by rw [hentry, hsame])
    exact ((h.alike hpath).readText (Disk.isFile_of_mem_definitionFiles hmem)).symm
  rw [load_of_isDirectory hthere, load_of_isDirectory hstill, addFiles_congr htexts, hfiles,
    addFiles_skip hfailure hlibrary]

/-- A file is empty, malformed or invalid, and not too long. -/
structure IsIdle (disk : Disk) (file : Path) : Prop where
  useless : Holds disk file .null ∨ ∃ reason, IsUnusable disk file reason
  short : ¬ IsTooLong disk file

/-- An idle file puts no library into a table, and does not make loading fail. -/
theorem IsIdle.contentOf (h : IsIdle disk file) :
    (contentOf disk file).failure? = none ∧ (contentOf disk file).library? = none := by
  rcases h.useless with hempty | ⟨reason, hreason⟩
  · rw [contentOf_of_empty hempty]
    exact ⟨rfl, rfl⟩
  · rw [contentOf_of_isUnusable hreason h.short]
    exact ⟨rfl, rfl⟩

/-- An idle file may be removed. -/
theorem load_of_remove (hfile : file ∈ disk.definitionFiles directory) (hidle : IsIdle disk file)
    (hremove : disk.remove file = .ok without) :
    (load without directory).outcome = (load disk directory).outcome := by
  obtain ⟨parent, inside, name, old, hdirectory, -, rfl, hfind, hold⟩ := Disk.exists_of_mem_definitionFiles hfile
  obtain ⟨removed, hremoved, hgone⟩ := Disk.remove_of_find_ok hfind hold
  obtain rfl : removed = without := Except.ok.inj (hremoved.symm.trans hremove)
  exact load_of_isRemoved hgone hdirectory hidle.contentOf.1 hidle.contentOf.2

/-- An idle file may be added. -/
theorem load_of_create {bytes : List UInt8} (hnew : disk.isFile (directory.entry name.text) = .ok false)
    (hwrite : disk.writeBytes (directory.entry name.text) bytes = .ok other)
    (hidle : IsIdle other (directory.entry name.text)) :
    (load other directory).outcome = (load disk directory).outcome := by
  rcases Disk.find_of_writeBytes hwrite with ⟨names, old, hfind, hold⟩ | hmissing
  · rw [Disk.isFile_of_find_ok hfind hold] at hnew
    cases hnew
  · obtain ⟨parent, hparent, hadded⟩ := Disk.isRemoved_of_created hmissing hwrite
    have hdirectory : (directory.entry name.text).parent = directory := by simp [Path.parent, Path.entry]
    have hname : FileName.ofText (directory.entry name.text).name = name := by
      simp [Path.name, Path.entry, FileName.ofText_text]
    rw [hdirectory] at hparent
    rw [hname] at hadded
    have hthere : other.find directory = .ok parent := by
      rcases hadded.find directory with hsame | ⟨hgone, -⟩
      · exact hsame.symm.trans hparent
      · cases hparent.symm.trans hgone
    exact (load_of_isRemoved hadded hthere hidle.contentOf.1 hidle.contentOf.2).symm

/-- The table of a directory whose definition files can be read is that of the libraries in them, and for each that
is malformed or invalid there is one message, unless a file is too long, at which loading ends. Idle files may be
removed and added. -/
theorem load_meaning (hdisk : disk.NamesDistinct) (hdirectory : disk.isDirectory directory = .ok true)
    (hreadable : ∀ file, disk.HasDefinition directory file → IsReadable disk file) :
    ∃ files : List Path,
      (∀ file, file ∈ files ↔ disk.HasDefinition directory file) ∧ (files.map Path.name).Pairwise Text.Before ∧
      ((∀ file ∈ files, ¬ IsTooLong disk file) → ∃ table, (load disk directory).outcome = .ok table ∧
        IsTableOf disk files table ∧ Complains disk files (load disk directory).log ∧
        ∀ file ∈ files, ∀ library, HoldsLibrary disk file library →
          (file.suffix = ".yml" ∨
            ∀ other ∈ files, other.stem = file.stem → other.suffix = ".yml" → ¬ HoldsValid disk other) →
          table.get? file.stem = some library) ∧
      (∀ front file back, files = front ++ file :: back → (∀ other ∈ front, ¬ IsTooLong disk other) →
        IsTooLong disk file → (load disk directory).outcome = .error (.write .tooManyDigits) ∧
          Complains disk front (load disk directory).log) ∧
      (∀ file ∈ files, IsIdle disk file → ∀ without, disk.remove file = .ok without →
        (load without directory).outcome = (load disk directory).outcome) ∧
      ∀ (name : FileName) bytes other, disk.isFile (directory.entry name.text) = .ok false →
        disk.writeBytes (directory.entry name.text) bytes = .ok other → IsIdle other (directory.entry name.text) →
        (load other directory).outcome = (load disk directory).outcome := by
  have hmem {file : Path} : file ∈ disk.definitionFiles directory ↔ disk.HasDefinition directory file :=
    Disk.mem_definitionFiles_iff
  have hordered := hdisk.definitionFiles_ordered directory
  have hload := load_of_isDirectory hdirectory
  refine ⟨disk.definitionFiles directory, fun _ => hmem, hordered, fun hshort => ?_,
    fun front file back hsplit hfront hlong => ?_, fun file hfile hidle without => load_of_remove hfile hidle,
    fun name bytes other hnew hwrite => load_of_create hnew hwrite⟩
  · have htractable : ∀ file ∈ disk.definitionFiles directory, IsTractable disk file :=
      fun file hfile => ⟨hreadable file (hmem.mp hfile), hshort file hfile⟩
    have htable := isTableOf_putAll htractable
    rw [hload, addFiles_eq fun file hfile => (htractable file hfile).failure?_eq_none]
    exact ⟨_, rfl, htable, complains_filterMap htractable, fun file hfile library hlibrary =>
      htable.get?_eq_some hordered (fun own hown => (hmem.mp hown).suffix) hfile hlibrary⟩
  · have htractable : ∀ other ∈ front, IsTractable disk other := fun other hother =>
      ⟨hreadable other (hmem.mp (hsplit ▸ List.mem_append_left _ hother)), hfront other hother⟩
    rw [hload, hsplit, addFiles_of_failure (fun other hother => (htractable other hother).failure?_eq_none)
      (contentOf_of_isTooLong hlong)]
    exact ⟨rfl, complains_filterMap htractable⟩

end Directory

end Loading

/-- An integer that cannot be written makes a document too long. -/
theorem StepLibrary.hasLongInteger_int {n : Int} (h : Number.isWritable n = false) :
    StepLibrary.HasLongInteger (.int n) := by
  have hviolated : IsViolated .stepLibrary (.int n) [] (.kinds [.mapping]) (.int n) := by
    refine ⟨.document .stepLibrary, rfl, _, .kinds ?_⟩
    rintro ⟨kind, hkind, hnumber⟩
    obtain rfl : .number = kind := Option.some.inj hnumber
    simp at hkind
  exact .violation hviolated h

section Brace

attribute [local instance] Runtime.plain

/-- The library in `x.yaml` stays in the table if `x.yml` is malformed. -/
theorem load_meaning_of_brace :
    let directory : Path := ⟨.slash, ["steps"]⟩
    let disk : Disk := ⟨.directory [(FileName.ofText "steps", .directory
      [(FileName.ofText "x.yml", .file [0x7b]), (FileName.ofText "x.yaml", .file [0x7b, 0x7d])])], []⟩
    disk.NamesDistinct ∧ disk.isDirectory directory = .ok true ∧
      (∀ file, disk.HasDefinition directory file → IsReadable disk file) ∧
      ∃ files table, (load disk directory).outcome = .ok table ∧ IsTableOf disk files table ∧
        Complains disk files (load disk directory).log ∧ table.get? "x" = some ⟨"x", "", [], []⟩ := by
  intro directory disk
  have hdisk : disk.NamesDistinct := by
    refine FileTree.namesDistinct_directory (by decide) ?_
    simp only [List.forall_mem_cons, List.not_mem_nil, false_imp_iff, implies_true, and_true]
    exact FileTree.namesDistinct_directory (by decide) (by simp [FileTree.namesDistinct_file])
  have hdirectory : disk.isDirectory directory = .ok true := rfl
  have hnames : (disk.namesIn directory).Perm ["x.yaml", "x.yml"] := by decide +kernel
  have hfiles : disk.definitionFiles directory = [directory.entry "x.yaml", directory.entry "x.yml"] :=
    (Disk.definitionFiles_of_perm hnames (by decide)).trans (by decide +kernel)
  have hmem {file : Path} : disk.HasDefinition directory file ↔
      file = directory.entry "x.yaml" ∨ file = directory.entry "x.yml" := by
    rw [← Disk.mem_definitionFiles_iff, hfiles, List.mem_pair]
  have hlibrary : Holds disk (directory.entry "x.yaml") (.map []) := ⟨"\x7b\x7d", by decide +kernel, rfl⟩
  have hmalformed : disk.readText (directory.entry "x.yml") = .ok "\x7b" := by decide +kernel
  have hreadMalformed : Yaml.read "\x7b" = .error .malformed := rfl
  have hnone {document : Value} : ¬ Holds disk (directory.entry "x.yml") document := by
    rintro ⟨text, htext, hread⟩
    obtain rfl := Except.ok.inj (hmalformed.symm.trans htext)
    rw [hreadMalformed] at hread
    cases hread
  have hbuilt : HoldsLibrary disk (directory.entry "x.yaml") ⟨"x", "", [], []⟩ :=
    ⟨_, hlibrary, fun hnull => (by cases hnull), StepLibrary.ofDocument_of_valid (validate_eq_ok_iff.mpr rfl)⟩
  have hreadable : ∀ file, disk.HasDefinition directory file → IsReadable disk file := by
    intro file hfile
    rcases hmem.mp hfile with rfl | rfl
    · obtain ⟨text, htext, hread⟩ := hlibrary
      exact ⟨text, htext, fun fault => by rw [hread]; simp⟩
    · exact ⟨_, hmalformed, fun fault => by rw [hreadMalformed]; simp⟩
  obtain ⟨files, hfiles, -, htable, -⟩ := load_meaning hdisk hdirectory hreadable
  have hshort : ∀ file ∈ files, ¬ IsTooLong disk file := by
    rintro file hfile hlong
    rcases hmem.mp ((hfiles file).mp hfile) with rfl | rfl
    · cases (contentOf_of_isTooLong hlong).symm.trans (contentOf_of_holdsLibrary hbuilt)
    · obtain ⟨document, hholds, -⟩ := hlong
      exact hnone hholds
  obtain ⟨table, hload, hof, hlog, hlast⟩ := htable hshort
  have hget := hlast _ ((hfiles _).mpr (hmem.mpr (.inl rfl))) _ hbuilt <|
    .inr fun other hother _ hsuffix hvalid => by
    rcases hmem.mp ((hfiles other).mp hother) with rfl | rfl
    · exact absurd hsuffix (by decide)
    · obtain ⟨document, hholds, -⟩ := hvalid
      exact hnone hholds
  exact ⟨hdisk, hdirectory, hreadable, files, table, hload, hof, hlog, hget⟩

/-- A definition file with an integer of more digits than can be written takes the table down, and with it the
library in another file, which is in the table once the file has been removed. -/
theorem load_ends_of_long_integer :
    let directory : Path := ⟨.slash, ["steps"]⟩
    let long : Text := .ofChars (Number.hexadecimal (Nat.pow 10 Number.digitLimit))
    let good : FileName × FileTree :=
      (FileName.ofText "y.yml", .file (("steps: [open the door]" : Text).flatMap Text.utf8))
    let disk : Disk := ⟨.directory [(FileName.ofText "steps", .directory
      [(FileName.ofText "x.yml", .file (long.flatMap Text.utf8)), good])], []⟩
    let without : Disk := ⟨.directory [(FileName.ofText "steps", .directory [good])], []⟩
    (load disk directory).outcome = .error (.write .tooManyDigits) ∧
      disk.remove (directory.entry "x.yml") = .ok without ∧
      (load without directory).outcome.map names = .ok ["y"] := by
  intro directory long good disk without
  obtain ⟨text, htext, hread⟩ := Yaml.heldIn_hexadecimal (Nat.pow 10 Number.digitLimit)
  have hlimit : Number.isWritable (Nat.pow 10 Number.digitLimit : Nat) = false := by
    rw [Number.isWritable, Int.natAbs_natCast]
    exact decide_eq_false (Nat.lt_irrefl _)
  have hlong : IsTooLong disk (directory.entry "x.yml") :=
    ⟨_, ⟨text, htext, hread⟩, StepLibrary.hasLongInteger_int hlimit⟩
  -- The names of the files tell which they are, whatever they hold.
  have hnames : (disk.namesIn directory).Perm ["x.yml", "y.yml"] := by decide +kernel
  have hfiles : disk.definitionFiles directory = [directory.entry "x.yml", directory.entry "y.yml"] :=
    (Disk.definitionFiles_of_perm hnames (by decide)).trans rfl
  have hload : load disk directory = ⟨[], .error (.write .tooManyDigits)⟩ := by
    rw [load_of_isDirectory (by rfl), hfiles]
    exact addFiles_of_failure (List.forall_mem_nil _) (contentOf_of_isTooLong hlong) [directory.entry "y.yml"] []
  exact ⟨congrArg Run.outcome hload, rfl, by decide +kernel⟩

end Brace

end LibraryTable

end TestPlan
