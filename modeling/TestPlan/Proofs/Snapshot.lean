import TestPlan.Proofs.Files.Contents
import TestPlan.Proofs.Files.Distinct
import TestPlan.Proofs.Files.Outside
import TestPlan.Proofs.Isolation.Opening
import TestPlan.Report

/-!
# An open project is a snapshot

The libraries and the profile of a project are read when it is opened, and the report on its test cases reads
nothing but their files. So changes among the libraries and the profiles leave the report of an open project as it
is: the test cases are listed alike and hold the same texts (`Disk.ListsAlike`), since they are under another name
in the root. A project that is opened afterwards has the new libraries and the new profile, and nothing tells it how
they came there.
-/

namespace TestPlan

namespace Disk

variable {disk other : Disk} {directory : Path}

/-- Where the names in a directory are the same and their entries are answered for alike, the definitions are. -/
theorem ListsAlike.of_alike (hdirectory : Alike disk other directory)
    (hnames : (disk.namesIn directory).Perm (other.namesIn directory))
    (hentries : ∀ name, Alike disk other (directory.entry name)) : ListsAlike disk other directory where
  isDirectory := hdirectory.isDirectory
  definitionFiles := by
    rw [Disk.definitionFiles, Disk.definitionFiles, Text.mergeSort_eq_of_perm hnames]
    refine List.filter_congr fun file hfile => ?_
    obtain ⟨name, -, rfl⟩ := List.mem_map.mp hfile
    exact congrArg (fun found => found.toOption.getD false && isDefinition (directory.entry name))
      (hentries name).isFile
  readText file hfile := by
    obtain ⟨name, -, rfl⟩ := (mem_definitionFiles_iff.mp hfile).listed
    exact (hentries name).readText (isFile_of_mem_definitionFiles hfile)

/-- Disks that hold the same have the same definitions everywhere. -/
theorem HoldsSame.listsAlike (h : HoldsSame disk other) (directory : Path) : ListsAlike disk other directory :=
  .of_alike (h.alike directory) (h.namesIn_perm directory) fun _ => h.alike _

/-- Changes behind some names of a directory leave the definitions under its other names as they are. -/
theorem SameOutside.listsAlike {root : List FileName} {inside : FileName → Prop}
    (h : SameOutside disk other root inside) (hroot : disk.find directory = .ok root) {name : Text}
    (hname : ¬ inside (FileName.ofText name)) (hup : name ≠ "..") : ListsAlike disk other (directory.entry name) :=
  .of_alike (h.alike_entry hroot hname hup) (.of_eq (h.namesIn_entry hroot hname hup).symm)
    (h.alike_entry_entry hroot hname hup)

end Disk

/-- Where the libraries of a project are, and its profiles. -/
def ProjectConfig.IsForOpening (name : FileName) : Prop :=
  name = FileName.ofText "steps" ∨ FileName.ofText ".env." <+: name

/-- A change of a library or a profile in the root of a project, or of something in there. -/
def ProjectConfig.OnlyOpensOtherwise (config : ProjectConfig) (disk : Disk) (change : FileChange) : Prop :=
  ∃ root siblings name rest, disk.find config.root = .ok root ∧ disk.look root = some (.directory siblings) ∧
    ProjectConfig.IsForOpening name ∧ disk.target change.path = root ++ name :: rest

namespace Project

variable {p : Project} {disk other : Disk}

/-- Changes of libraries and profiles leave the test cases of a project as they are. -/
theorem listsAlike_after {config : ProjectConfig} {changes : List FileChange}
    (h : ∀ change ∈ changes, config.OnlyOpensOtherwise disk change) :
    disk.ListsAlike (disk.after changes) config.casesDirectory := by
  cases changes with
  | nil => exact ⟨rfl, rfl, fun _ _ => rfl⟩
  | cons first rest =>
    obtain ⟨root, siblings, -, -, hroot, hsiblings, -, -⟩ := h first List.mem_cons_self
    have hsame : disk.SameOutside (disk.after (first :: rest)) root ProjectConfig.IsForOpening := by
      refine Disk.sameOutside_after hsiblings fun change hchange => ?_
      obtain ⟨own, -, name, behind, hown, -, hname, htarget⟩ := h change hchange
      obtain rfl : own = root := Except.ok.inj (hown.symm.trans hroot)
      exact ⟨name, behind, hname, htarget⟩
    have hcases : ¬ ProjectConfig.IsForOpening (FileName.ofText "test-cases") := by
      rintro (hsteps | hprofile)
      · exact absurd hsteps (by decide)
      · exact absurd hprofile (by decide)
    rw [ProjectConfig.casesDirectory_eq]
    exact hsame.listsAlike hroot hcases (by decide)

section Reports

variable [Runtime]

/-- The report on all test cases follows from how they are listed. -/
theorem reportCases_congr (h : disk.ListsAlike other p.config.casesDirectory) :
    p.reportCases disk none = p.reportCases other none := by
  have hcases : Run.collect (fun path => p.resolveCase disk path none)
        (disk.definitionFiles p.config.casesDirectory) =
      Run.collect (fun path => p.resolveCase other path none) (disk.definitionFiles p.config.casesDirectory) :=
    Run.collect_congr fun path hpath => by rw [resolveCase, resolveCase, h.readText path hpath]
  let report (disk : Disk) (files : List Path) : Run Failure Report :=
    Run.collect (fun path => p.resolveCase disk path none) files >>= fun cases =>
      pure ⟨p, files.length, .cases (cases.filterMap id)⟩
  change disk.discover p.config.casesDirectory "Test cases directory" >>= report disk =
    other.discover p.config.casesDirectory "Test cases directory" >>= report other
  rw [← h.discover]
  refine Run.bind_congr fun files hfiles => ?_
  obtain rfl := Disk.files_of_discover hfiles
  simp only [report, hcases]

/-- An open project is a snapshot of its libraries and its profile. Whatever becomes of these, the report on its
test cases stays the same, with the same messages. A project that is opened afterwards has the report that it has on
any disk which holds the same files, however they came there. -/
theorem open_is_snapshot {changes : List FileChange}
    (h : ∀ change ∈ changes, p.config.OnlyOpensOtherwise disk change) :
    p.reportCases (disk.after changes) none = p.reportCases disk none ∧
      ∀ fresh, (disk.after changes).HoldsSame fresh →
        (load fresh p.config >>= fun q => q.reportCases fresh none) =
          load (disk.after changes) p.config >>= fun q => q.reportCases (disk.after changes) none := by
  refine ⟨(reportCases_congr (listsAlike_after h)).symm, fun fresh hfresh => ?_⟩
  have hload : load fresh p.config = load (disk.after changes) p.config := by
    rw [load, load, EnvProfile.load_congr (hfresh.alike p.config.profileFile),
      LibraryTable.load_congr (hfresh.listsAlike p.config.stepsDirectory)]
  have hreport (q : Project) : q.reportCases fresh none = q.reportCases (disk.after changes) none :=
    (reportCases_congr (hfresh.listsAlike q.config.casesDirectory)).symm
  simp only [hload, hreport]

end Reports

section Written

attribute [local instance] Runtime.plain

/-- A profile that is written while a project is open shows in the next project only. -/
theorem open_is_snapshot_of_profile :
    let disk : Disk := ⟨.directory [(FileName.ofText "test-cases", .directory
      [(FileName.ofText "a.yml", .file [0x7b, 0x7d])])], []⟩
    let config : ProjectConfig := ⟨⟨.slash, []⟩, some "dev", none, some 10⟩
    let opened : Project := ⟨config, [], []⟩
    let profile : EnvProfile := [("A", "")]
    let changes : List FileChange :=
      [.makeDirectory ⟨.slash, ["steps"]⟩, .write ⟨.slash, [".env.dev"]⟩ [0x41, 0x3d]]
    (load disk config).outcome = .ok opened ∧
      (∀ change ∈ changes, config.OnlyOpensOtherwise disk change) ∧
      opened.reportCases (disk.after changes) none = opened.reportCases disk none ∧
      (load (disk.after changes) config).outcome.toOption.map Project.profile = some profile := by
  intro disk config opened profile changes
  have hchanges : ∀ change ∈ changes, config.OnlyOpensOtherwise disk change := by
    intro change hchange
    rcases List.mem_pair.mp hchange with rfl | rfl
    · exact ⟨[], [FileName.ofText "test-cases"], FileName.ofText "steps", [], rfl, rfl, .inl rfl, rfl⟩
    · exact ⟨[], [FileName.ofText "test-cases"], FileName.ofText ".env.dev", [], rfl, rfl, .inr (by decide), rfl⟩
  exact ⟨rfl, hchanges, (open_is_snapshot (p := opened) hchanges).1, by decide +kernel⟩

end Written

end Project
end TestPlan
