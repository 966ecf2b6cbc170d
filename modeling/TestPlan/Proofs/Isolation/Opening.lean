import TestPlan.Proofs.Content
import TestPlan.Proofs.Files.Path

/-!
# Opening a project among files that change

Opening a project reads its profile and its libraries, and nothing else. So it is opened alike on disks that
answer alike about everything but a file among the test cases, which are not where the libraries are.
-/

namespace TestPlan

namespace Disk

variable {disk other : Disk} {path : Path}

/-- The text of a file is the text in its bytes. -/
theorem readText_of_readBytes {bytes : List UInt8} (h : disk.readBytes path = .ok bytes) :
    disk.readText path = Text.ofBytes bytes := by
  rw [readText, h]
  rfl

/-- Disks that answer alike about the path of a file give the same text for it. -/
theorem Alike.readText (h : Alike disk other path) (hfile : disk.isFile path = .ok true) :
    disk.readText path = other.readText path := by
  rw [Disk.readText, Disk.readText, h.readBytes hfile]

/-- Definition files are files. -/
theorem isFile_of_mem_definitionFiles {directory : Path} (h : path ∈ disk.definitionFiles directory) :
    disk.isFile path = .ok true :=
  toOption_isFile_iff.mp (Bool.and_eq_true_iff.mp (List.mem_filter.mp h).2).1

end Disk

section Opening

variable {disk other : Disk}

/-- A profile is loaded alike from disks that answer alike about its file. -/
theorem EnvProfile.load_congr {file : Path} (h : disk.Alike other file) :
    EnvProfile.load disk file = EnvProfile.load other file := by
  rw [EnvProfile.load, EnvProfile.load, h.isFile]
  cases hfile : other.isFile file with
  | error e => rfl
  | ok there =>
    cases there with
    | false => rfl
    | true => rw [h.readText (h.isFile.trans hfile)]

/-- Two disks have the same definition files with the same texts in a directory. -/
structure Disk.ListsAlike (disk other : Disk) (directory : Path) : Prop where
  isDirectory : disk.isDirectory directory = other.isDirectory directory
  definitionFiles : disk.definitionFiles directory = other.definitionFiles directory
  readText : ∀ file ∈ disk.definitionFiles directory, disk.readText file = other.readText file

/-- Disks with the same definition files discover the same. -/
theorem Disk.ListsAlike.discover {directory : Path} (h : disk.ListsAlike other directory) (label : Text) :
    disk.discover directory label = other.discover directory label := by
  rw [Disk.discover, Disk.discover, h.isDirectory, h.definitionFiles]

variable [Runtime]

/-- Libraries are loaded alike from files that have the same texts. -/
theorem LibraryTable.addFiles_congr {files : List Path}
    (h : ∀ file ∈ files, disk.readText file = other.readText file) (table : LibraryTable) :
    addFiles disk table files = addFiles other table files := by
  induction files generalizing table with
  | nil => rfl
  | cons file rest ih =>
    have hfile : addFile disk table file = addFile other table file := by
      rw [addFile, addFile, loadFile, loadFile, h file List.mem_cons_self]
    simp only [addFiles, hfile, ih fun file hfile => h file (List.mem_cons_of_mem _ hfile)]

/-- Libraries are loaded alike from directories that have the same definition files. -/
theorem LibraryTable.load_congr {directory : Path} (h : disk.ListsAlike other directory) :
    load disk directory = load other directory := by
  rw [load, load, ← h.discover]
  refine Run.bind_congr fun files hfiles => ?_
  obtain rfl := Disk.files_of_discover hfiles
  exact addFiles_congr h.readText []

end Opening

/-- The test cases are in a directory of the root. -/
theorem ProjectConfig.casesDirectory_eq (config : ProjectConfig) :
    config.casesDirectory = config.root.entry "test-cases" :=
  Path.IsName.below_eq ⟨by decide, by decide, by decide⟩ config.root

namespace Project

variable {disk other : Disk} {config : ProjectConfig} {parent : List FileName} {name : FileName}

/-- The directory of the libraries is not where the test cases are. -/
theorem find_stepsDirectory (h : disk.find config.casesDirectory = .ok parent) :
    disk.find config.stepsDirectory ≠ .ok parent ∧
      ∀ name, disk.find config.stepsDirectory ≠ .ok (parent ++ [name]) := by
  have hsteps : config.stepsDirectory = config.root.entry "steps" :=
    Path.IsName.below_eq ⟨by decide, by decide, by decide⟩ config.root
  rw [ProjectConfig.casesDirectory_eq] at h
  rw [hsteps]
  obtain ⟨place, hplace, hparent⟩ := Disk.walk_of_find_entry h
  replace hparent := hparent.resolve_left fun hup => absurd hup.1 (by decide)
  refine ⟨fun hsame => ?_, fun name hname => ?_⟩
  · exact absurd (Disk.ofText_eq_of_find (by decide) (by decide) h hsame) (by decide)
  · obtain ⟨other, hother, hnames⟩ := Disk.walk_of_find_entry hname
    replace hnames := hnames.resolve_left fun hup => absurd hup.1 (by decide)
    obtain rfl := Except.ok.inj (hplace.symm.trans hother)
    have hlength := congrArg List.length (hparent.2 ▸ hnames.2)
    simp at hlength

variable [Runtime]

/-- A project is opened alike on disks that answer alike about everything but a test case file. -/
theorem load_congr (hdirectory : disk.find config.casesDirectory = .ok parent)
    (halike : ∀ path, disk.find path ≠ .ok (parent ++ [name]) → disk.Alike other path)
    (hfiles : other.definitionFiles config.stepsDirectory = disk.definitionFiles config.stepsDirectory)
    (hprofile : disk.find config.profileFile ≠ .ok (parent ++ [name])) : load other config = load disk config := by
  obtain ⟨hsteps, hdistinct⟩ := find_stepsDirectory hdirectory
  have hlibraries : LibraryTable.load disk config.stepsDirectory =
      LibraryTable.load other config.stepsDirectory := by
    refine LibraryTable.load_congr ⟨(halike _ (hdistinct name)).isDirectory, hfiles.symm, fun path hpath => ?_⟩
    obtain ⟨place, inside, own, old, hplace, -, -, hfind, -⟩ := Disk.exists_of_mem_definitionFiles hpath
    refine (halike path fun hsame => hsteps ?_).readText (Disk.isFile_of_mem_definitionFiles hpath)
    rw [hplace, List.append_inj_left' (Except.ok.inj (hfind.symm.trans hsame)) rfl]
  rw [load, load, EnvProfile.load_congr (halike _ hprofile), hlibraries]

end Project
end TestPlan
