import TestPlan.TestCase

/-!
# Test suites

Resolving the definition of a test suite: it is validated, held against the tag filter, and the test
cases that it refers to are read and resolved without a filter. Every reference contributes one item,
either a test case or the reason why it has none; both lists keep the order of the references.
-/

namespace TestPlan

/-- A reference to a test case that could not be followed. -/
structure SuiteError where
  testCase : Value
  error : Text

/-- A resolved test suite, or one that could not be resolved and says why. -/
structure TestSuite where
  name : Text
  originalFile : Text
  suiteName : Text
  description : Text
  tags : List Value
  preActions : List Value
  postActions : List Value
  testCases : List TestCase
  errors : List SuiteError
  error : Option Text

/-- How referenced test cases are read: a path as written gives the file with its text. -/
abbrev CaseReader := Text → Except Failure (Text × Text)

namespace TestSuite

/-- How many instructions the test cases of a suite have. -/
def totalSteps (suite : TestSuite) : Nat := total (suite.testCases.map TestCase.stepCount)

/-- How many references went wrong; a suite that could not be resolved counts once. -/
def totalErrors (suite : TestSuite) : Nat := if suite.error.isSome then 1 else suite.errors.length

/-- A suite that could not be resolved. -/
def failed (name originalFile error : Text) : TestSuite :=
  ⟨name, originalFile, name, [], [], [], [], [], [], some error⟩

/-- Report why a suite could not be resolved, and go on with a failed one. -/
def fail (name originalFile reported error : Text) : Run Failure (Option TestSuite) := do
  Run.reportError
    ("Error processing test suite " ++ TestCase.label name originalFile ++ ": " ++ reported)
  return some (failed name originalFile error)

/-- The path that a reference names, as a text or in a field. -/
def normalizeReference (reference : Value) : Except Failure Text :=
  match reference with
  | .scalar (.text path) => .ok path
  | _ =>
    let path := reference.field "path"
    if path.truthy then (path.write Value.display).mapError .write else .error (.definition .reference)

/-- The file and the text that a reference leads to. A file that is not there, or that cannot be read, is
the reference's own error; other failures are not. -/
def follow (read : CaseReader) (reference : Value) : Except Failure (Text × Text) := do
  let path ← normalizeReference reference
  match read path with
  | .ok found => return found
  | .error (.file (.notFound _)) => throw (.definition (.missingCase path))
  | .error (.file e) => throw (.definition (.unreadableCase path e.message))
  | .error failure => throw failure

/-- What a reference contributes to its suite. -/
inductive Item
  | case (case : TestCase)
  | error (error : SuiteError)

/-- The test case of an item. -/
def Item.case? : Item → Option TestCase
  | case c => some c
  | error _ => none

/-- The error of an item. -/
def Item.error? : Item → Option SuiteError
  | case _ => none
  | error e => some e

variable [Runtime]

/-- Resolve a reference. -/
def resolveReference (x : Expander) (read : CaseReader) (reference : Value) :
    Run Failure (Option Item) :=
  match follow read reference with
  | .ok (file, text) => do
    return (← TestCase.resolveText x text (Path.ofText file).name file none).map .case
  | .error (.definition e) => return some (.error ⟨reference, e.message⟩)
  | .error failure => Run.fail failure

/-- Resolve a definition. Nothing is the result for a suite that the filter leaves out. -/
def resolve (x : Expander) (read : CaseReader) (definition : Value) (name originalFile : Text)
    (filter : Option Text) : Run Failure (Option TestSuite) :=
  match requireValid .testSuite definition (some name) with
  | .error (.definition e) => fail name originalFile e.message e.message
  | .error failure => Run.fail failure
  | .ok () => do
    let tags := (definition.field "tags").items?
    if ← Run.ofExcept ((TagFilter.passes filter tags).mapError .tag) then
      let items ← Run.collect (resolveReference x read) (TestCase.listField definition "test-cases")
      let declared := (definition.field "name").text?.getD []
      return some {
        name := name
        originalFile := originalFile
        suiteName := if declared.isEmpty then name else declared
        description := Parameter.descriptionOf definition
        tags := tags.getD []
        preActions := TestCase.listField definition "pre-actions"
        postActions := TestCase.listField definition "post-actions"
        testCases := items.filterMap fun item => item.bind Item.case?
        errors := items.filterMap fun item => item.bind Item.error?
        error := none }
    else return none

/-- Resolve the definition that a text holds. -/
def resolveText (x : Expander) (read : CaseReader) (text name originalFile : Text)
    (filter : Option Text) : Run Failure (Option TestSuite) :=
  match Yaml.read text with
  | .ok definition => resolve x read definition name originalFile filter
  | .error .malformed =>
    fail name originalFile (Runtime.complaint text) (DefinitionError.malformed (Runtime.complaint text))
  | .error (.scalar fault) => Run.fail (.scalar fault)

end TestSuite
end TestPlan
