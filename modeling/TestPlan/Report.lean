import TestPlan.Project

/-!
# Reports

What a run over a project comes to: the test cases or test suites that the filter lets through, in the
order of their files, with the settings they were resolved under and a summary. `Report.value` is a
report as a document value, in the order in which it is written as JSON.
-/

namespace TestPlan

/-- A mapping with texts as keys. -/
def Value.record (fields : List (String × Value)) : Value :=
  .map (fields.map fun (name, v) => (.text name, v))

/-- A list of texts as a value. -/
def Value.texts (items : List Text) : Value := .list (items.map .text)

/-- A count as a value. -/
def Value.count (n : Nat) : Value := .int n

namespace TestCase

/-- A test case as it appears in a report. -/
def value (case : TestCase) : Value :=
  .record <|
    [("name", .text case.name), ("originalFile", .text case.originalFile),
      ("description", .text case.description), ("tags", .list case.tags), ("steps", .texts case.steps),
      ("stepCount", .count case.stepCount), ("rawSteps", .list case.rawSteps)] ++
    case.error.toList.map fun e => ("error", .text e)

end TestCase

/-- A reference that could not be followed, as it appears in a report. -/
def SuiteError.value (e : SuiteError) : Value :=
  .record [("testCase", e.testCase), ("error", .text e.error)]

namespace TestSuite

/-- The counts of a suite. -/
def summary (suite : TestSuite) : List (String × Nat) :=
  [("totalTestCases", suite.testCases.length), ("totalSteps", suite.totalSteps),
    ("totalErrors", suite.totalErrors)]

/-- A test suite as it appears in a report. -/
def value (suite : TestSuite) : Value :=
  .record <|
    [("name", .text suite.name), ("originalFile", .text suite.originalFile),
      ("suiteName", .text suite.suiteName), ("description", .text suite.description),
      ("tags", .list suite.tags), ("preActions", .list suite.preActions),
      ("postActions", .list suite.postActions), ("testCases", .list (suite.testCases.map TestCase.value)),
      ("errors", .list (suite.errors.map SuiteError.value)),
      ("summary", .record (suite.summary.map fun (name, n) => (name, .count n)))] ++
    suite.error.toList.map fun e => ("error", .text e)

end TestSuite

/-- The results of a run: test cases or test suites. -/
inductive Results
  | cases (cases : List TestCase)
  | suites (suites : List TestSuite)

/-- The results of a run over a project, and how many files it looked at. -/
structure Report where
  project : Project
  found : Nat
  results : Results

namespace Report

/-- The results as they appear in a report, under their name. -/
def resultsField (report : Report) : String × Value :=
  match report.results with
  | .cases cases => ("testCases", .list (cases.map TestCase.value))
  | .suites suites => ("testSuites", .list (suites.map TestSuite.value))

/-- The counts of a report. -/
def summary (report : Report) : List (String × Nat) :=
  match report.results with
  | .cases cases =>
    [("totalFound", report.found), ("totalMatched", cases.length),
      ("totalSteps", total (cases.map TestCase.stepCount))]
  | .suites suites =>
    [("totalSuitesFound", report.found), ("totalSuitesMatched", suites.length),
      ("totalTestCases", total (suites.map fun s => s.testCases.length)),
      ("totalSteps", total (suites.map TestSuite.totalSteps)),
      ("totalErrors", total (suites.map TestSuite.totalErrors))]

/-- A report as a document value. -/
def value (report : Report) : Value :=
  let config := report.project.config
  .record
    [("environment", config.environmentValue),
      ("tagFilter", (config.tagFilter.map Value.text).getD .null),
      ("envVars", .map report.project.profile.entries),
      ("stepLibraries", .texts report.project.libraries.names),
      report.resultsField,
      ("summary", .record (report.summary.map fun (name, n) => (name, .count n)))]

end Report

namespace Project

variable [Runtime]

/-- Resolve all test cases of a project, or the one asked for. -/
def reportCases (p : Project) (disk : Disk) (file : Option Text) : Run Failure Report := do
  let files ← p.caseFiles disk file
  let cases ← Run.collect (fun path => p.resolveCase disk path none) files
  return ⟨p, files.length, .cases (cases.filterMap id)⟩

/-- Resolve all test suites of a project, or the one asked for. -/
def reportSuites (p : Project) (disk : Disk) (file : Option Text) : Run Failure Report := do
  let files ← p.suiteFiles disk file
  let suites ← Run.collect (p.resolveSuite disk) files
  return ⟨p, files.length, .suites (suites.filterMap id)⟩

end Project
end TestPlan
