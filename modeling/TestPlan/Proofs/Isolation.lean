import TestPlan.Proofs.Isolation.Suites

/-!
# One file among the others of a project

A project reads its files one by one, so what one of them holds reaches the others in no other way than by
ending the run. When the bytes of a test case file change, the project is opened as before, every other test
case becomes what it would become without the file, and the report has the same entries for them
(`Project.KeepsCases`). A suite that refers to the file keeps what its other references contribute
(`Project.KeepsReferences`). The file itself becomes a test case, a failed one if its bytes are refused, or it
ends the run.
-/

namespace TestPlan
namespace Project

section Isolation

variable {p : Project} {disk changed without : Disk} {file : Path} {bytes : List UInt8} {parent : List FileName}
  {name : FileName}

/-- The test case files are the definition files of their directory, if it is there. -/
theorem caseFiles_of_isDirectory (h : disk.isDirectory p.config.casesDirectory = .ok true) :
    (p.caseFiles disk none).outcome = .ok (disk.definitionFiles p.config.casesDirectory) :=
  congrArg Run.outcome (Disk.discover_of_isDirectory h "Test cases directory")

variable [Runtime]

/-- A test case file is resolved from its bytes. -/
theorem resolveCase_of_bytes (h : disk.readBytes file = .ok bytes) (filter : Option Text) :
    p.resolveCase disk file filter =
      TestCase.resolveBytes p.expander bytes file.name file.text ((chosen? filter).or p.config.tagFilter) := by
  have htext := Disk.readText_of_readBytes h
  rw [resolveCase, TestCase.resolveBytes, htext]
  cases hdecode : Text.decode bytes with
  | ok chars => rw [Text.ofBytes_of_ok hdecode]
  | error fault => rw [Text.ofBytes_of_error hdecode]

/-- A project has a report on test case files exactly if each of them becomes one or is left out, and then the
report has an entry for each in the order of the files. -/
theorem reportCases_of_caseFiles {asked : Option Text} {files : List Path}
    (hfiles : (p.caseFiles disk asked).outcome = .ok files) (report : Report) :
    (p.reportCases disk asked).outcome = .ok report ↔
      (∀ path ∈ files, ∃ entry, (p.resolveCase disk path none).outcome = .ok entry) ∧
      report = ⟨p, files.length, .cases (files.filterMap fun path => (p.resolveCase disk path none).result?)⟩ := by
  rw [reportCases, Run.bind_of_ok hfiles, Run.collect_bind_outcome_eq_ok_iff, List.filterMap_map, Function.id_comp]

/-- The report on all test cases follows from what each of their files becomes. -/
theorem reportCases_outcome_eq_ok_iff {files : List Path} {resolve : Path → Run Failure (Option TestCase)}
    (hdirectory : disk.isDirectory p.config.casesDirectory = .ok true)
    (hfiles : disk.definitionFiles p.config.casesDirectory = files)
    (hresolve : ∀ path ∈ files, p.resolveCase disk path none = resolve path) (report : Report) :
    (p.reportCases disk none).outcome = .ok report ↔
      (∀ path ∈ files, ∃ entry, (resolve path).outcome = .ok entry) ∧
      report = ⟨p, files.length, .cases (files.filterMap fun path => (resolve path).result?)⟩ := by
  have hfound : (p.caseFiles disk none).outcome = .ok files := hfiles ▸ caseFiles_of_isDirectory hdirectory
  have hentries : files.filterMap (fun path => (p.resolveCase disk path none).result?) =
      files.filterMap fun path => (resolve path).result? :=
    List.filterMap_congr fun path hpath => congrArg Run.result? (hresolve path hpath)
  rw [reportCases_of_caseFiles hfound, hentries]
  exact and_congr_left fun _ => forall₂_congr fun path hpath => by rw [hresolve path hpath]

/-- How test cases fare on a disk where the bytes of one of their files have changed, and on a disk without the
file. -/
structure KeepsCases (p : Project) (disk changed without : Disk) (file : Path) : Prop where
  /-- the project is opened as before, if its profile is not the file itself -/
  opened : disk.find p.config.profileFile ≠ disk.find file →
    load changed p.config = load disk p.config ∧ load without p.config = load disk p.config
  /-- every other test case becomes what it becomes without the file -/
  others : ∀ other ∈ disk.definitionFiles p.config.casesDirectory, other ≠ file → ∀ filter,
    p.resolveCase changed other filter = p.resolveCase without other filter
  /-- every file becomes a failed test case if its bytes are refused, and else a complete one or nothing, or it
  ends the run -/
  answers : ∀ path bytes, changed.readBytes path = .ok bytes → TestCase.HoldsPlain p.expander bytes →
    (∃ entry, (p.resolveCase changed path none).outcome = .ok entry ∧
      ((∃ error ≠ [], entry = some (.failed path.name path.text error)) ↔
        TestCase.IsRefused p.expander p.config.tagFilter bytes)) ∨
    ∃ e, (p.resolveCase changed path none).outcome = .error e ∧ TestCase.Ends p.expander bytes e
  /-- the report with the file has the entries of the report without it, and in its place the file's own -/
  reported :
    let files := disk.definitionFiles p.config.casesDirectory
    let others := files.filter (· ≠ file)
    let entry (path : Path) := (p.resolveCase changed path none).result?
    let HasEntry (path : Path) := ∃ entry, (p.resolveCase changed path none).outcome = .ok entry
    (∀ report, (p.reportCases without none).outcome = .ok report ↔
      (∀ path ∈ others, HasEntry path) ∧ report = ⟨p, others.length, .cases (others.filterMap entry)⟩) ∧
    ∀ report, (p.reportCases changed none).outcome = .ok report ↔
      (∀ path ∈ files, HasEntry path) ∧ report = ⟨p, files.length, .cases (files.filterMap entry)⟩

/-- Test cases keep apart when the bytes of one of their files change. -/
theorem keepsCases {d : Int} (hd : p.config.maxDepth = some d) (htable : p.libraries.IsPlain)
    (hdirectory : disk.find p.config.casesDirectory = .ok parent)
    (hname : file = p.config.casesDirectory.entry name.text) (hfind : disk.find file = .ok (parent ++ [name]))
    (hwritten : Disk.IsWritten disk changed (parent ++ [name]) bytes)
    (hremoved : Disk.IsRemoved disk without parent name) : p.KeepsCases disk changed without file := by
  -- Two definition files that lead to one place have one name in the directory, so they are one.
  have hother {path : Path} (hpath : path ∈ disk.definitionFiles p.config.casesDirectory) (hne : path ≠ file) :
      disk.find path ≠ .ok (parent ++ [name]) := by
    intro hsame
    obtain ⟨place, inside, own, old, hplace, -, rfl, hown, -⟩ := Disk.exists_of_mem_definitionFiles hpath
    have hnames := List.append_inj' (Except.ok.inj (hown.symm.trans hsame)) rfl
    exact hne (hname ▸ congrArg _ (congrArg FileName.text (List.singleton_inj.mp hnames.2)))
  have hothers : ∀ path ∈ disk.definitionFiles p.config.casesDirectory, path ≠ file → ∀ filter,
      p.resolveCase changed path filter = p.resolveCase without path filter := by
    intro path hpath hne filter
    have hisFile := Disk.isFile_of_mem_definitionFiles hpath
    rw [resolveCase, resolveCase, ← (hwritten.alike (hother hpath hne)).readText hisFile,
      ← (hremoved.alike (hother hpath hne)).readText hisFile]
  have hrest : without.definitionFiles p.config.casesDirectory =
      (disk.definitionFiles p.config.casesDirectory).filter (· ≠ file) :=
    hname ▸ hremoved.definitionFiles hdirectory
  obtain ⟨inside, hinside, -⟩ := hremoved.without.directory
  have hisDirectory := Disk.isDirectory_of_find_ok hdirectory hinside
  have hplace : disk.find p.config.casesDirectory ≠ .ok (parent ++ [name]) := by simp [hdirectory]
  exact {
    opened := fun hprofile => by
      rw [hfind] at hprofile
      have hsteps := (find_stepsDirectory hdirectory).1
      exact ⟨load_congr hdirectory (fun _ => hwritten.alike) (hwritten.definitionFiles _) hprofile,
        load_congr hdirectory (fun _ => hremoved.alike) (hremoved.definitionFiles_elsewhere hsteps) hprofile⟩
    others := hothers
    answers := fun path held hheld hplain => by
      rw [resolveCase_of_bytes hheld]
      rcases TestCase.resolveBytes_answers hd htable hplain path.name path.text p.config.tagFilter with
        ⟨entry, hentry⟩ | hends
      · exact .inl ⟨entry, hentry, TestCase.failed_iff_of_resolveBytes hentry⟩
      · exact .inr hends
    reported :=
      ⟨reportCases_outcome_eq_ok_iff ((hremoved.alike hplace).isDirectory.symm.trans hisDirectory) hrest
          fun path hpath =>
            (hothers path (List.mem_of_mem_filter hpath) (by simpa using (List.mem_filter.mp hpath).2) none).symm,
        reportCases_outcome_eq_ok_iff ((hwritten.alike hplace).isDirectory.symm.trans hisDirectory)
          (hwritten.definitionFiles _) fun _ _ => rfl⟩ }

/-- A file never takes others down except by ending the run. Whatever bytes a file comes to hold, suites keep what
their other references contribute; and if it is a test case file, the project is opened as before, the other test
cases become what they become without the file, and the report has their entries together with the file's own. -/
theorem file_is_isolated {d : Int} (hd : p.config.maxDepth = some d) (htable : p.libraries.IsPlain)
    (hfile : disk.isFile file = .ok true) (bytes : List UInt8) :
    ∃ changed, disk.writeBytes file bytes = .ok changed ∧ changed.readBytes file = .ok bytes ∧
      p.KeepsReferences disk changed file bytes ∧
      (file ∈ disk.definitionFiles p.config.casesDirectory →
        ∃ without, disk.remove file = .ok without ∧ p.KeepsCases disk changed without file) := by
  obtain ⟨names, old, hfind, hlook⟩ := Disk.find_of_isFile hfile
  obtain ⟨changed, hwrite, hwritten⟩ := Disk.writeBytes_of_find_ok hfind hlook bytes
  refine ⟨changed, hwrite, (readBytes_of_isWritten hfind hwritten rfl).2, keepsReferences hd htable hfind hwritten,
    fun hmem => ?_⟩
  obtain ⟨parent, inside, name, own, hdirectory, -, hname, hentry, hown⟩ := Disk.exists_of_mem_definitionFiles hmem
  obtain rfl := Except.ok.inj (hfind.symm.trans hentry)
  obtain ⟨without, hremove, hremoved⟩ := Disk.remove_of_find_ok hfind hlook
  exact ⟨without, hremove, keepsCases hd htable hdirectory hname hfind hwritten hremoved⟩

end Isolation

section Brace

attribute [local instance] Runtime.plain

/-- A file that comes to hold an open brace becomes a failed test case next to another one. -/
theorem file_is_isolated_of_brace :
    let disk : Disk := ⟨.directory [(FileName.ofText "test-cases", .directory
      [(FileName.ofText "a.yml", .file [0x7b, 0x7d]), (FileName.ofText "b.yml", .file [])])], []⟩
    let p : Project := ⟨⟨⟨.slash, []⟩, some "dev", none, some 10⟩, [], []⟩
    let file : Path := ⟨.slash, ["test-cases", "b.yml"]⟩
    (p.libraries.IsPlain ∧ disk.isFile file = .ok true ∧ file ∈ disk.definitionFiles p.config.casesDirectory) ∧
    ∃ changed without, disk.writeBytes file [0x7b] = .ok changed ∧ disk.remove file = .ok without ∧
      p.KeepsReferences disk changed file [0x7b] ∧ p.KeepsCases disk changed without file ∧
      ∃ error ≠ [], (p.resolveCase changed file none).outcome = .ok (some (.failed file.name file.text error)) := by
  intro disk p file
  have htable : p.libraries.IsPlain := fun library hlibrary => absurd hlibrary List.not_mem_nil
  have hfile : disk.isFile file = .ok true := by decide
  have hnames : (disk.namesIn p.config.casesDirectory).Perm ["a.yml", "b.yml"] := by decide +kernel
  have hmem : file ∈ disk.definitionFiles p.config.casesDirectory := by
    rw [Disk.definitionFiles_of_perm hnames (by decide)]
    decide +kernel
  have hdecode : Text.decode [0x7b] = .ok ['\x7b'] := by decide +kernel
  have hheld : Yaml.HeldIn [0x7b] (.error .malformed) := ⟨_, Text.ofBytes_of_ok hdecode, rfl⟩
  have hnone (definition : Value) : ¬ Yaml.HeldIn [0x7b] (.ok definition) := fun h => by simpa using h.unique hheld
  obtain ⟨changed, hwrite, hbytes, hreferences, hcases⟩ :=
    file_is_isolated (p := p) (d := 10) rfl htable hfile [0x7b]
  obtain ⟨without, hremove, hkeeps⟩ := hcases hmem
  refine ⟨⟨htable, hfile, hmem⟩, changed, without, hwrite, hremove, hreferences, hkeeps, ?_⟩
  rcases hkeeps.answers file [0x7b] hbytes ⟨fun _ h => absurd h (hnone _), fun _ h => absurd h (hnone _)⟩ with
    ⟨entry, hentry, hiff⟩ | ⟨e, -, hends⟩
  · obtain ⟨error, herror, rfl⟩ := hiff.mpr (.malformed hheld)
    exact ⟨error, herror, hentry⟩
  · cases hends with
    | encoding h => simp [hdecode] at h
    | scalar h => exact absurd (h.unique hheld) (by simp)
    | digits h => exact absurd h (hnone _)

/-- A byte that is no UTF-8 takes all test cases down: there is a report without its file, and none with it. -/
theorem report_ends_of_undecodable :
    let disk : Disk := ⟨.directory [(FileName.ofText "test-cases", .directory
      [(FileName.ofText "a.yml", .file [0x7b, 0x7d]), (FileName.ofText "b.yml", .file [])])], []⟩
    let p : Project := ⟨⟨⟨.slash, []⟩, some "dev", none, some 10⟩, [], []⟩
    let file : Path := ⟨.slash, ["test-cases", "b.yml"]⟩
    ∃ changed without, disk.writeBytes file [0xff] = .ok changed ∧ disk.remove file = .ok without ∧
      (load changed p.config).outcome = .ok p ∧ (∃ report, (p.reportCases without none).outcome = .ok report) ∧
      (p.reportCases changed none).outcome = .error (.encoding ⟨0xff, 0, 1, .start⟩) := by
  intro disk p file
  let changed : Disk := ⟨.directory [(FileName.ofText "test-cases", .directory
    [(FileName.ofText "a.yml", .file [0x7b, 0x7d]), (FileName.ofText "b.yml", .file [0xff])])], []⟩
  let without : Disk := ⟨.directory [(FileName.ofText "test-cases", .directory
    [(FileName.ofText "a.yml", .file [0x7b, 0x7d])])], []⟩
  have hwithout : (p.reportCases without none).outcome.toOption.isSome = true := by decide +kernel
  have hnames : (changed.namesIn p.config.casesDirectory).Perm ["a.yml", "b.yml"] := by decide +kernel
  have hchanged : (p.reportCases changed none).outcome.map (fun _ => ()) =
      .error (.encoding ⟨0xff, 0, 1, .start⟩) := by
    rw [reportCases, Run.bind_of_ok (caseFiles_of_isDirectory rfl), Disk.definitionFiles_of_perm hnames (by decide)]
    decide +kernel
  refine ⟨changed, without, rfl, rfl, rfl, ?_, ?_⟩
  · cases houtcome : (p.reportCases without none).outcome with
    | ok report => exact ⟨report, rfl⟩
    | error e => simp [houtcome, Except.toOption] at hwithout
  · cases houtcome : (p.reportCases changed none).outcome with
    | ok report => simp [houtcome, Except.map] at hchanged
    | error e => simpa [houtcome, Except.map] using hchanged

end Brace

end Project
end TestPlan
