import Mathlib.Algebra.Ring.Nat
import TestPlan.Proofs.CaseAccess
import TestPlan.Proofs.Files.Distinct
import TestPlan.Report

/-!
# Complete reports

A report on a project lists what the definition files of a directory become, in the order of their names, as far as
the filter lets them through (`IsListing`). The counts in its summary are those of its own entries (`AddsUp`), so
nothing is counted that is not listed, and what is listed is counted once.
-/

namespace TestPlan

/-- What is counted at the entries of a report adds up to this. -/
def AddsUp (entries : List Value) (counted : Value → Value) (sum : Value) : Prop :=
  ∃ counts : List Nat, entries.map counted = counts.map .count ∧ sum = .count counts.sum

/-- Results are those of the definition files of a directory that have one: each is there once, and they come in the
order of the names of the files. -/
structure IsListing {α : Type} (disk : Disk) (directory : Path) (resolve : Path → Run Failure (Option α))
    (nameOf fileOf : α → Text) (files : List Path) (results : List α) : Prop where
  mem_files_iff : ∀ file, file ∈ files ↔ disk.HasDefinition directory file
  files_ordered : (files.map Path.name).Pairwise Text.Before
  resolved : ∀ file ∈ files, ∃ result, (resolve file).outcome = .ok result
  mem_results_iff : ∀ result, result ∈ results ↔ ∃ file ∈ files, (resolve file).outcome = .ok (some result)
  named : ∀ file ∈ files, ∀ result, (resolve file).outcome = .ok (some result) →
    nameOf result = file.name ∧ fileOf result = file.text
  results_ordered : (results.map nameOf).Pairwise Text.Before

/-- A run has a result exactly if it is the outcome. -/
theorem Run.result?_eq_some_iff {ε β : Type} {run : Run ε (Option β)} {b : β} :
    run.result? = some b ↔ run.outcome = .ok (some b) := by
  rw [result?, Option.join_eq_some_iff, toOption_eq_some_iff]

section Listing

variable {α : Type} {disk : Disk} {directory : Path} {resolve : Path → Run Failure (Option α)}
  {nameOf fileOf : α → Text} {files : List Path}

/-- What the definition files of a directory become is a listing of it. -/
theorem isListing_of_files (hfiles : ∀ file, file ∈ files ↔ disk.HasDefinition directory file)
    (hordered : (files.map Path.name).Pairwise Text.Before)
    (hresolved : ∀ file ∈ files, ∃ result, (resolve file).outcome = .ok result)
    (hnamed : ∀ file ∈ files, ∀ result, (resolve file).outcome = .ok (some result) →
      nameOf result = file.name ∧ fileOf result = file.text) :
    IsListing disk directory resolve nameOf fileOf files (files.filterMap fun file => (resolve file).result?) where
  mem_files_iff := hfiles
  files_ordered := hordered
  resolved := hresolved
  mem_results_iff result := by simp only [List.mem_filterMap, Run.result?_eq_some_iff]
  named := hnamed
  results_ordered := by
    rw [List.pairwise_map] at hordered ⊢
    rw [List.pairwise_filterMap]
    refine hordered.imp_of_mem fun {first second} hfirst hsecond hbefore result hresult other hother => ?_
    rw [(hnamed first hfirst result (Run.result?_eq_some_iff.mp hresult)).1,
      (hnamed second hsecond other (Run.result?_eq_some_iff.mp hother)).1]
    exact hbefore

/-- If no file is left out, there are as many results as files. -/
theorem length_filterMap_result (h : ∀ file ∈ files, ∃ result, (resolve file).outcome = .ok result)
    (hnone : ∀ file ∈ files, (resolve file).outcome ≠ .ok none) :
    (files.filterMap fun file => (resolve file).result?).length = files.length := by
  rw [List.length_filterMap_eq_countP, List.countP_eq_length]
  intro file hfile
  obtain ⟨result, hresult⟩ := h file hfile
  cases result with
  | none => exact absurd hresult (hnone file hfile)
  | some own => rw [Run.result?_eq_some_iff.mpr hresult, Option.isSome_some]

end Listing

namespace TestSuite

variable [Runtime] {x : Expander} {read : CaseReader} {name originalFile : Text} {filter : Option Text}
  {suite : TestSuite}

/-- A suite that comes out of a definition has the name and the file that were asked for, and if it says why it
could not be resolved, that is all it says. -/
theorem named_of_resolve {definition : Value}
    (h : (resolve x read definition name originalFile filter).outcome = .ok (some suite)) :
    (suite.name = name ∧ suite.originalFile = originalFile) ∧
      ∀ e ∈ suite.error, suite = failed name originalFile e := by
  cases hvalid : validate .testSuite definition (some name) with
  | error e =>
    rw [resolve_of_invalid hvalid] at h
    split at h
    · obtain rfl := Option.some.inj (Except.ok.inj h)
      exact ⟨⟨rfl, rfl⟩, fun other hother => Option.some.inj hother ▸ rfl⟩
    · simp [Run.fail] at h
  | ok =>
    by_cases hmatch : TagFilter.Matches filter (definition.field "tags").items?
    · obtain ⟨-, rfl⟩ := (resolve_outcome_eq_ok_iff hvalid hmatch).mp h
      exact ⟨⟨rfl, rfl⟩, by simp [complete]⟩
    · rw [resolve_of_mismatch hvalid hmatch] at h
      simp at h

/-- A suite that comes out of a text has the name and the file that were asked for, and if it says why it could not
be resolved, that is all it says. -/
theorem named_of_resolveText {text : Text}
    (h : (resolveText x read text name originalFile filter).outcome = .ok (some suite)) :
    (suite.name = name ∧ suite.originalFile = originalFile) ∧
      ∀ e ∈ suite.error, suite = failed name originalFile e := by
  unfold resolveText at h
  split at h
  · exact named_of_resolve h
  · obtain rfl := Option.some.inj (Except.ok.inj h)
    exact ⟨⟨rfl, rfl⟩, fun other hother => Option.some.inj hother ▸ rfl⟩
  · simp [Run.fail] at h

/-- No suite is left out where no filter is chosen. -/
theorem resolveText_ne_none (h : Project.chosen? filter = none) (text : Text) :
    (resolveText x read text name originalFile filter).outcome ≠ .ok none := by
  have hsame : resolveText x read text name originalFile filter =
      resolveText x read text name originalFile none := by
    rcases Project.chosen?_eq_none_iff.mp h with rfl | rfl <;> rfl
  rw [hsame, resolveText]
  split
  next definition _ =>
    cases hvalid : validate .testSuite definition (some name) with
    | error e =>
      rw [resolve_of_invalid hvalid]
      split <;> simp [fail_eq, Run.fail]
    | ok => exact resolve_none_ne hvalid
  · simp [fail_eq]
  · simp [Run.fail]

end TestSuite

namespace Project

variable [Runtime] {p : Project} {disk : Disk} {file : Path}

/-- A suite that comes out of a file has the name and the path of the file. -/
theorem named_of_resolveSuite {suite : TestSuite} (h : (p.resolveSuite disk file).outcome = .ok (some suite)) :
    (suite.name = file.name ∧ suite.originalFile = file.text) ∧
      ∀ e ∈ suite.error, suite = .failed file.name file.text e := by
  unfold resolveSuite at h
  split at h
  · exact TestSuite.named_of_resolveText h
  · simp [Run.fail] at h
  · simp [Run.fail] at h
  · obtain rfl := Option.some.inj (Except.ok.inj h)
    exact ⟨⟨rfl, rfl⟩, fun other hother => Option.some.inj hother ▸ rfl⟩
  · simp [Run.fail] at h

/-- In a project without a filter no test suite file is left out. -/
theorem resolveSuite_ne_none (hfilter : chosen? p.config.tagFilter = none) :
    (p.resolveSuite disk file).outcome ≠ .ok none := by
  unfold resolveSuite
  split
  · exact TestSuite.resolveText_ne_none hfilter _
  · simp [Run.fail]
  · simp [Run.fail]
  · simp [TestSuite.fail_eq]
  · simp [Run.fail]

/-- A test case that comes out of a file has the name and the path of the file. -/
theorem named_of_resolveCase {case : TestCase} (hfile : disk.isFile file = .ok true)
    (h : (p.resolveCase disk file none).outcome = .ok (some case)) :
    case.name = file.name ∧ case.originalFile = file.text := by
  obtain ⟨bytes, hbytes⟩ := Disk.exists_readBytes hfile
  rw [resolveCase_of_bytes hbytes] at h
  exact TestCase.named_of_resolveBytes h

/-- In a project without a filter no test case file is left out. -/
theorem resolveCase_ne_none (hfilter : chosen? p.config.tagFilter = none) (hfile : disk.isFile file = .ok true) :
    (p.resolveCase disk file none).outcome ≠ .ok none := by
  obtain ⟨bytes, hbytes⟩ := Disk.exists_readBytes hfile
  rw [resolveCase_of_not_chosen hfilter hbytes]
  exact TestCase.resolveBytes_none_ne _ _ _ _

end Project

/-- A report has these test cases as its entries, and the counts in it are those of its entries. -/
structure CountsCases (report : Value) (found : Nat) (cases : List TestCase) : Prop where
  listed : TestCase.listField report "testCases" = cases.map TestCase.value
  found : (report.field "summary").field "totalFound" = .count found
  matched : (report.field "summary").field "totalMatched" = .count (TestCase.listField report "testCases").length
  steps : AddsUp (TestCase.listField report "testCases") (·.field "stepCount")
    ((report.field "summary").field "totalSteps")
  own : ∀ case ∈ TestCase.listField report "testCases",
    case.field "stepCount" = .count (TestCase.listField case "steps").length

/-- The summary of a suite counts its own entries, or one error and nothing else if the suite has an error itself.
-/
structure CountsSuite (suite : Value) : Prop where
  testCases :
    (suite.field "summary").field "totalTestCases" = .count (TestCase.listField suite "testCases").length
  steps : AddsUp (TestCase.listField suite "testCases") (·.field "stepCount")
    ((suite.field "summary").field "totalSteps")
  errors : suite.field? "error" = none →
    (suite.field "summary").field "totalErrors" = .count (TestCase.listField suite "errors").length
  failed : suite.field? "error" ≠ none →
    (suite.field "summary").field "totalErrors" = .count 1 ∧ TestCase.listField suite "testCases" = []

/-- A report has these test suites as its entries, and the counts in it are those in the summaries of its entries.
-/
structure CountsSuites (report : Value) (found : Nat) (suites : List TestSuite) : Prop where
  listed : TestCase.listField report "testSuites" = suites.map TestSuite.value
  found : (report.field "summary").field "totalSuitesFound" = .count found
  matched :
    (report.field "summary").field "totalSuitesMatched" = .count (TestCase.listField report "testSuites").length
  sums : ∀ name ∈ ["totalTestCases", "totalSteps", "totalErrors"],
    AddsUp (TestCase.listField report "testSuites") (fun suite => (suite.field "summary").field name)
      ((report.field "summary").field name)
  own : ∀ suite ∈ TestCase.listField report "testSuites", CountsSuite suite

section Counts

/-- What is counted at each entry is counted at all of them. -/
theorem addsUp_map {α : Type} {valueOf : α → Value} {counted : Value → Value} {count : α → Nat}
    (h : ∀ entry, counted (valueOf entry) = .count (count entry)) (entries : List α) :
    AddsUp (entries.map valueOf) counted (.count (total (entries.map count))) := by
  refine ⟨entries.map count, ?_, rfl⟩
  rw [List.map_map, List.map_map]
  exact List.map_congr_left fun entry _ => h entry

/-- What a report says about its test cases is true of them. -/
theorem countsCases_value (p : Project) (found : Nat) (cases : List TestCase) :
    CountsCases (Report.value ⟨p, found, .cases cases⟩) found cases where
  listed := rfl
  found := rfl
  matched := congrArg Value.count (List.length_map TestCase.value).symm
  steps := addsUp_map (fun _ => rfl) cases
  own case hcase := by
    obtain ⟨own, -, rfl⟩ : ∃ own ∈ cases, own.value = case := List.mem_map.mp hcase
    exact congrArg Value.count (List.length_map Value.text).symm

/-- The summary of a suite is true of it, as long as a suite that has an error has no test cases. -/
theorem countsSuite_value {suite : TestSuite} (h : suite.error ≠ none → suite.testCases = []) :
    CountsSuite suite.value where
  testCases := congrArg Value.count (List.length_map TestCase.value).symm
  steps := addsUp_map (fun _ => rfl) suite.testCases
  errors hnone := by
    obtain ⟨_, _, _, _, _, _, _, _, errors, error⟩ := suite
    cases error with
    | none => exact congrArg Value.count (List.length_map SuiteError.value).symm
    | some e => cases hnone
  failed hsome := by
    obtain ⟨_, _, _, _, _, _, _, cases, _, error⟩ := suite
    cases error with
    | none => exact absurd rfl hsome
    | some e =>
      obtain rfl := h nofun
      exact ⟨rfl, rfl⟩

/-- What a report says about its test suites is true of them. -/
theorem countsSuites_value (p : Project) (found : Nat) {suites : List TestSuite}
    (h : ∀ suite ∈ suites, suite.error ≠ none → suite.testCases = []) :
    CountsSuites (Report.value ⟨p, found, .suites suites⟩) found suites where
  listed := rfl
  found := rfl
  matched := congrArg Value.count (List.length_map TestSuite.value).symm
  sums name hname := by
    simp only [List.mem_cons, List.not_mem_nil, or_false] at hname
    rcases hname with rfl | rfl | rfl
    · exact addsUp_map (fun _ => rfl) suites
    · exact addsUp_map (fun _ => rfl) suites
    · exact addsUp_map (fun _ => rfl) suites
  own suite hsuite := by
    obtain ⟨own, hown, rfl⟩ : ∃ own ∈ suites, own.value = suite := List.mem_map.mp hsuite
    exact countsSuite_value (h own hown)

end Counts

namespace Project

section Reports

variable [Runtime] {p : Project} {disk : Disk}

/-- A report on test suites comes from the files that are found. -/
theorem reportSuites_of_suiteFiles {asked : Option Text} {files : List Path}
    (hfiles : (p.suiteFiles disk asked).outcome = .ok files) (report : Report) :
    (p.reportSuites disk asked).outcome = .ok report ↔
      (∀ path ∈ files, ∃ entry, (p.resolveSuite disk path).outcome = .ok entry) ∧
      report = ⟨p, files.length, .suites (files.filterMap fun path => (p.resolveSuite disk path).result?)⟩ := by
  rw [reportSuites, Run.bind_of_ok hfiles, Run.collect_bind_outcome_eq_ok_iff, List.filterMap_map, Function.id_comp]

/-- Reports are complete, ordered and add up: the entries are what the definition files of the directory become, as
far as the filter lets them through, and all of them do if there is no filter; the counts are those of the entries.
-/
theorem reports_add_up (hdisk : disk.NamesDistinct) (p : Project) :
    (∀ report, (p.reportCases disk none).outcome = .ok report → ∃ files cases,
      IsListing disk p.config.casesDirectory (fun file => p.resolveCase disk file none) TestCase.name
        TestCase.originalFile files cases ∧
      CountsCases report.value files.length cases ∧
      (chosen? p.config.tagFilter = none → cases.length = files.length)) ∧
    ∀ report, (p.reportSuites disk none).outcome = .ok report → ∃ files suites,
      IsListing disk p.config.suitesDirectory (p.resolveSuite disk) TestSuite.name TestSuite.originalFile files
        suites ∧
      CountsSuites report.value files.length suites ∧
      (chosen? p.config.tagFilter = none → suites.length = files.length) := by
  have hordered (directory : Path) := hdisk.definitionFiles_ordered directory
  constructor
  · intro report hreport
    cases hfiles : (p.caseFiles disk none).outcome with
    | error e =>
      rw [reportCases, Run.bind_of_error hfiles] at hreport
      cases hreport
    | ok files =>
      obtain ⟨hresolved, rfl⟩ := (reportCases_of_caseFiles hfiles report).mp hreport
      obtain rfl : files = disk.definitionFiles p.config.casesDirectory := Disk.files_of_discover hfiles
      have hisFile {file : Path} (hfile : file ∈ disk.definitionFiles p.config.casesDirectory) :=
        Disk.isFile_of_mem_definitionFiles hfile
      refine ⟨_, _, isListing_of_files (fun _ => Disk.mem_definitionFiles_iff) (hordered _) hresolved ?_,
        countsCases_value p _ _, ?_⟩
      · exact fun file hfile case hcase => named_of_resolveCase (hisFile hfile) hcase
      · intro hfilter
        exact length_filterMap_result hresolved fun file hfile => resolveCase_ne_none hfilter (hisFile hfile)
  · intro report hreport
    cases hfiles : (p.suiteFiles disk none).outcome with
    | error e =>
      rw [reportSuites, Run.bind_of_error hfiles] at hreport
      cases hreport
    | ok files =>
      obtain ⟨hresolved, rfl⟩ := (reportSuites_of_suiteFiles hfiles report).mp hreport
      obtain rfl : files = disk.definitionFiles p.config.suitesDirectory := Disk.files_of_discover hfiles
      refine ⟨_, _, isListing_of_files (fun _ => Disk.mem_definitionFiles_iff) (hordered _) hresolved ?_,
        countsSuites_value p _ ?_, ?_⟩
      · exact fun file _ suite hsuite => (named_of_resolveSuite hsuite).1
      · intro suite hsuite herror
        obtain ⟨file, -, hresult⟩ := List.mem_filterMap.mp hsuite
        obtain ⟨e, he⟩ := Option.ne_none_iff_exists'.mp herror
        rw [(named_of_resolveSuite (Run.result?_eq_some_iff.mp hresult)).2 e he]
        rfl
      · intro hfilter
        exact length_filterMap_result hresolved fun file _ => resolveSuite_ne_none hfilter

end Reports

section Brace

attribute [local instance] Runtime.plain

/-- A test case file that is broken is found and listed, one without a suffix of definitions is not found; a suite
that is broken counts one error. -/
theorem reports_add_up_of_brace :
    let disk : Disk := ⟨.directory [
      (FileName.ofText "test-cases", .directory
        [(FileName.ofText "c.yml", .file [0x7b]), (FileName.ofText "a.txt", .file []),
          (FileName.ofText "b.yaml", .file [0x7b, 0x7d])]),
      (FileName.ofText "test-suites", .directory [(FileName.ofText "s.yml", .file [0x7b])])], []⟩
    let p : Project := ⟨⟨⟨.slash, []⟩, some "dev", none, some 10⟩, [], []⟩
    disk.NamesDistinct ∧
    (∃ report files cases, (p.reportCases disk none).outcome = .ok report ∧
      IsListing disk p.config.casesDirectory (fun file => p.resolveCase disk file none) TestCase.name
        TestCase.originalFile files cases ∧ CountsCases report.value files.length cases) ∧
    ∃ report found suites, (p.reportSuites disk none).outcome = .ok report ∧
      CountsSuites report.value found suites ∧ suites.length = found := by
  intro disk p
  have hdisk : disk.NamesDistinct := by
    refine FileTree.namesDistinct_directory (by decide) ?_
    simp only [List.forall_mem_cons, List.not_mem_nil, false_imp_iff, implies_true, and_true]
    exact ⟨FileTree.namesDistinct_directory (by decide) (by simp [FileTree.namesDistinct_file]),
      FileTree.namesDistinct_directory (by decide) (by simp [FileTree.namesDistinct_file])⟩
  have hnames : (disk.namesIn p.config.casesDirectory).Perm ["a.txt", "b.yaml", "c.yml"] := by decide +kernel
  have hcases : (p.reportCases disk none).outcome.toOption.isSome = true := by
    rw [reportCases, Run.bind_of_ok (caseFiles_of_isDirectory rfl), Disk.definitionFiles_of_perm hnames (by decide)]
    decide +kernel
  have hsuites : (p.reportSuites disk none).outcome.toOption.isSome = true := by decide +kernel
  obtain ⟨report, hreport⟩ := Option.isSome_iff_exists.mp hcases
  obtain ⟨other, hother⟩ := Option.isSome_iff_exists.mp hsuites
  rw [toOption_eq_some_iff] at hreport hother
  obtain ⟨hlistsCases, hlistsSuites⟩ := reports_add_up hdisk p
  obtain ⟨files, cases, hlisting, hcounts, -⟩ := hlistsCases report hreport
  obtain ⟨suiteFiles, suites, -, hsuiteCounts, hall⟩ := hlistsSuites other hother
  exact ⟨hdisk, ⟨report, files, cases, hreport, hlisting, hcounts⟩,
    other, suiteFiles.length, suites, hother, hsuiteCounts, hall rfl⟩

end Brace

end Project
end TestPlan
