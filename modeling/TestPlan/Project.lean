import TestPlan.EnvProfile
import TestPlan.TestSuite

/-!
# Projects

A project is a directory with environment profiles, step libraries, test cases and test suites. Opening
it reads the profile of the chosen environment and all step libraries, once; what is written later under
`steps` or to a profile changes nothing for an open project. Test cases and suites are read when they are
asked for.

A step library that cannot be used is reported and left out. A test case or suite that cannot be read
becomes a failed one. Files that are no UTF-8, scalars without a value, and paths that are too long to be
looked at, end the run.
-/

namespace TestPlan

namespace Disk

/-- The text of a file, with unified newlines. -/
def readText (disk : Disk) (path : Path) : Except Failure Text := do
  let bytes ← (disk.readBytes path).mapError .file
  let chars ← (Text.decode bytes).mapError .encoding
  return .ofChars (Text.unifyNewlines chars)

/-- Whether a file name has the suffix of a definition. -/
def isDefinition (path : Path) : Bool := path.suffix == ".yml" || path.suffix == ".yaml"

/-- The definition files in a directory, ordered by name. -/
def definitionFiles (disk : Disk) (directory : Path) : List Path :=
  let names := (disk.namesIn directory).mergeSort Text.precedes
  (names.map fun name => { directory with names := directory.names ++ [name] }).filter fun path =>
    (disk.isFile path).toOption.getD false && isDefinition path

/-- The definition files in a directory; one that is not there is reported under a label. -/
def discover (disk : Disk) (directory : Path) (label : Text) : Run Failure (List Path) := do
  if ← Run.ofExcept ((disk.isDirectory directory).mapError .file) then
    return disk.definitionFiles directory
  else
    Run.warn (label ++ " " ++ directory.text ++ " not found")
    return []

/-- The file with a name in a directory, or with an absolute path, if it is there. -/
def findDefinition (disk : Disk) (directory : Path) (name : Text) : Except FileError (List Path) := do
  let path := directory.below name
  if ← disk.isFile path then return [path] else return []

end Disk

/-- What a project is opened with. There is no `environment` if the choice names none, and no `maxDepth`
if the limit on the depth of inclusions is no number. -/
structure ProjectConfig where
  root : Path
  environment : Option Text
  tagFilter : Option Text
  maxDepth : Option Int

namespace ProjectConfig

/-- The directory of test cases. -/
def casesDirectory (config : ProjectConfig) : Path := config.root.below "test-cases"

/-- The directory of test suites. -/
def suitesDirectory (config : ProjectConfig) : Path := config.root.below "test-suites"

/-- The directory of step libraries. -/
def stepsDirectory (config : ProjectConfig) : Path := config.root.below "steps"

/-- The chosen environment as a value; a choice that names none is an empty list. -/
def environmentValue (config : ProjectConfig) : Value :=
  match config.environment with
  | some name => .text name
  | none => .list []

/-- The profile of the chosen environment. -/
def profileFile (config : ProjectConfig) : Path :=
  config.root.below (".env." ++ config.environmentValue.display)

end ProjectConfig

/-- The profile in a file; one that is not there is reported and counts as empty. -/
def EnvProfile.load (disk : Disk) (file : Path) : Run Failure EnvProfile := do
  if ← Run.ofExcept ((disk.isFile file).mapError .file) then
    return ofText (← Run.ofExcept (disk.readText file))
  else
    Run.warn ("Environment file " ++ file.text ++ " not found")
    return []

namespace LibraryTable

variable [Runtime]

/-- The library in a file, if the file holds a document at all. -/
def loadFile (disk : Disk) (file : Path) : Except Failure (Option StepLibrary) := do
  let text ← disk.readText file
  match Yaml.read text with
  | .ok document =>
    if document.isNull then return none
    else some <$> StepLibrary.ofDocument file.stem document
  | .error .malformed => throw (.definition (.unreadable file.stem (Runtime.complaint text)))
  | .error (.scalar fault) => throw (.scalar fault)

/-- Report a library that cannot be used. -/
def reportUnusable (file : Path) (reason : Text) : Run Failure Unit :=
  Run.reportError ("Error loading step library " ++ file.name ++ ": " ++ reason)

/-- Put the library of a file into a table, which stays as it is if the file has none that can be used. -/
def addFile (disk : Disk) (table : LibraryTable) (file : Path) : Run Failure LibraryTable :=
  match loadFile disk file with
  | .ok none => return table
  | .ok (some library) => return table.put library
  | .error (.definition (.unreadable _ reason)) => do
    reportUnusable file reason
    return table
  | .error (.definition e) => do
    reportUnusable file e.message
    return table
  | .error (.file e) => do
    reportUnusable file e.message
    return table
  | .error failure => Run.fail failure

/-- Put the libraries of files into a table, one after the other. -/
def addFiles (disk : Disk) (table : LibraryTable) : List Path → Run Failure LibraryTable
  | [] => return table
  | file :: rest => do addFiles disk (← addFile disk table file) rest

/-- The libraries in a directory. -/
def load (disk : Disk) (directory : Path) : Run Failure LibraryTable := do
  addFiles disk [] (← disk.discover directory "Steps directory")

end LibraryTable

/-- An open project. -/
structure Project where
  config : ProjectConfig
  profile : EnvProfile
  libraries : LibraryTable

namespace Project

/-- Open a project: read its profile and its libraries. -/
def load [Runtime] (disk : Disk) (config : ProjectConfig) : Run Failure Project := do
  let profile ← EnvProfile.load disk config.profileFile
  let libraries ← LibraryTable.load disk config.stepsDirectory
  return ⟨config, profile, libraries⟩

/-- The expander for the steps of a project. -/
def expander (p : Project) : Expander := ⟨p.libraries, p.profile.entries, p.config.maxDepth⟩

/-- A setting that is there: not missing and not empty. -/
def chosen? (setting : Option Text) : Option Text :=
  match setting with
  | some [] => none
  | setting => setting

/-- The test case files of a project, or the one asked for. -/
def caseFiles (p : Project) (disk : Disk) (file : Option Text) : Run Failure (List Path) :=
  match chosen? file with
  | some name => Run.ofExcept ((disk.findDefinition p.config.casesDirectory name).mapError .file)
  | none => disk.discover p.config.casesDirectory "Test cases directory"

/-- The test suite files of a project, or the one asked for. -/
def suiteFiles (p : Project) (disk : Disk) (file : Option Text) : Run Failure (List Path) :=
  match chosen? file with
  | some name => Run.ofExcept ((disk.findDefinition p.config.suitesDirectory name).mapError .file)
  | none => disk.discover p.config.suitesDirectory "Test suites directory"

/-- Read a test case that a suite refers to, by a path from the project's root. -/
def readCase (p : Project) (disk : Disk) : CaseReader := fun reference => do
  let path := p.config.root.below reference
  if ← (disk.isFile path).mapError .file then return (path.text, ← disk.readText path)
  else throw (.file (.notFound path.text))

/-- The paths that the test suite files of a project refer to. -/
def referencedPaths [Runtime] (p : Project) (disk : Disk) (files : List Path) : List Path :=
  files.flatMap fun file =>
    match disk.readText file with
    | .error _ => []
    | .ok text =>
      match Yaml.read text with
      | .error _ => []
      | .ok definition =>
        (TestCase.listField definition "test-cases").filterMap fun reference =>
          match TestSuite.normalizeReference reference with
          | .ok path => some (p.config.root.below path)
          | .error _ => none

/-- Resolve a test case file under a filter, or else under the project's own. -/
def resolveCase [Runtime] (p : Project) (disk : Disk) (file : Path) (filter : Option Text) :
    Run Failure (Option TestCase) :=
  match disk.readText file with
  | .ok text =>
    TestCase.resolveText p.expander text file.name file.text ((chosen? filter).or p.config.tagFilter)
  | .error (.file .nullCharacter) => Run.fail (.file .nullCharacter)
  | .error (.file (.halves found)) => Run.fail (.file (.halves found))
  | .error (.file e) => TestCase.fail file.name file.text e.message e.message
  | .error failure => Run.fail failure

/-- Resolve a test suite file under the project's filter. -/
def resolveSuite [Runtime] (p : Project) (disk : Disk) (file : Path) : Run Failure (Option TestSuite) :=
  match disk.readText file with
  | .ok text =>
    TestSuite.resolveText p.expander (p.readCase disk) text file.name file.text p.config.tagFilter
  | .error (.file .nullCharacter) => Run.fail (.file .nullCharacter)
  | .error (.file (.halves found)) => Run.fail (.file (.halves found))
  | .error (.file e) => TestSuite.fail file.name file.text e.message e.message
  | .error failure => Run.fail failure

end Project
end TestPlan
