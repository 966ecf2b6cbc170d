import TestPlan.CommandLine.Options
import TestPlan.Display
import TestPlan.Report

/-!
# Running the command

What the command does, as a function of the files and its arguments: the messages it shows, its exit code,
what it prints, and the files afterwards. A run that resolves everything writes its report, to standard
output or to a file. One that fails before there is a report shows the reason. A project whose directory
cannot be looked at, and a report that has no JSON form, that cannot be printed or that cannot be written to
its file, end the command with a failure that it does not handle.
-/

namespace TestPlan.CommandLine

/-- What a run of the command comes to. -/
structure Outcome where
  /-- the messages shown -/
  shown : List Message
  code : Nat
  /-- what is printed to standard output -/
  printed : Text
  /-- the files afterwards -/
  disk : Disk
  /-- a failure that is not handled -/
  escaped : Option Failure

/-- A path without double dots, from the root. -/
def absolute (disk : Disk) (path : Path) : Path where
  root := .slash
  names := (disk.fromRoot path).foldl
    (fun (names : List Text) (name : Text) => if name = ".." then names.dropLast else names ++ [name]) []

/-- The project that settings ask for. -/
def configOf (root : Path) (s : Settings) : ProjectConfig :=
  ⟨root, s.environment, Project.chosen? s.tagFilter, s.maxDepth⟩

/-- The report that settings ask for. -/
def report [Runtime] (disk : Disk) (root : Path) (s : Settings) : Run Failure Report := do
  let project ← Project.load disk (configOf root s)
  if s.suites || (Project.chosen? s.suite).isSome then project.reportSuites disk s.suite
  else project.reportCases disk s.file

/-- The least number that is no signed machine word. -/
def wordLimit : Nat := Nat.pow 2 63

/-- The number of blanks that no longer fit into memory. -/
def memoryLimit : Nat := Nat.pow 2 40

/-- The layout of a report; without indentation every item still has its own line. -/
def layout (s : Settings) : Except LayoutFault JsonLayout :=
  match s.indent with
  | none => .error .noNumber
  | some indent =>
    if (wordLimit : Int) ≤ indent ∨ indent < -(wordLimit : Int) then .error .noWord
    else if (memoryLimit : Int) ≤ indent then .error .tooWide
    else .ok (.lines indent.toNat)

/-- Write a text to a file, in directories that are made if need be. Halves of characters in the text are
in the way: the file is empty then, and they are given back. -/
def writeFile (disk : Disk) (path : Path) (text : Text) :
    Except FileError (Disk × Option Text.Halves) := do
  let (bytes, found) := match Text.encode text with
    | .ok bytes => (bytes, none)
    | .error found => ([], some found)
  return (← (← disk.makeDirectories path.parent).writeBytes path bytes, found)

/-- The halves of characters in a text for which standard output refuses it. -/
def refused? [Runtime] (text : Text) : Option Text.Halves :=
  match Runtime.output, Text.encode text with
  | .strict, .error found => some found
  | _, _ => none

/-- What has become of a report: what is printed, the files then, and why the report is not where it should be. -/
structure Delivery where
  printed : Text
  disk : Disk
  failure : Option Failure

/-- Write a report where the settings say. -/
def deliver [Runtime] (disk : Disk) (s : Settings) (r : Report) : Run Failure Delivery := do
  let layout ← Run.ofExcept ((layout s).mapError .layout)
  let json ← Run.ofExcept ((r.value.json layout).mapError .report)
  let text := json ++ "\n"
  match Project.chosen? s.output with
  | none =>
    match refused? text with
    | none => return ⟨text, disk, none⟩
    | some found => return ⟨[], disk, some (.halves found)⟩
  | some output => do
    let path := Path.ofText output
    let (disk, found) ← Run.ofExcept ((writeFile disk path text).mapError .file)
    if found.isNone then Run.report .info ("Report written to " ++ path.text)
    return ⟨[], disk, found.map .halves⟩

/-- What stops following a path name by name from the root: a name that no file can have. -/
def unfollowable? (disk : Disk) (path : Path) : Option FileError :=
  (List.range path.names.length).findSome? fun count =>
    let way := absolute disk { path with names := path.names.take (count + 1) }
    match FileName.unnameable? way.text with
    | some found => some (.halves found)
    | none => if way.hasNull then some .nullCharacter else none

/-- The path of the project from the root, and whether it leads to a directory. -/
def projectRoot (disk : Disk) (s : Settings) : Except FileError (Path × Bool) := do
  let path := Path.ofText s.project
  if let some e := unfollowable? disk path then throw e
  let root := absolute disk path
  return (root, ← disk.isDirectory root)

/-- Run the command with settings. -/
def runWith [Runtime] (disk : Disk) (s : Settings) : Outcome :=
  let stop (log : List Message) (escaped : Option Failure) : Outcome :=
    ⟨Display.shown s.quiet log, 1, [], disk, escaped⟩
  match projectRoot disk s with
  | .error e => stop [] (some (.file e))
  | .ok (root, false) => stop [⟨.error, "Project directory not found: " ++ root.text⟩] none
  | .ok (root, true) =>
    let resolved := report disk root s
    match resolved.outcome with
    | .error failure => stop (resolved.log ++ [⟨.error, "Error: " ++ failure.message⟩]) none
    | .ok r =>
      let delivered := deliver disk s r
      let log := resolved.log ++ delivered.log
      match delivered.outcome with
      | .error failure => stop log (some failure)
      | .ok delivery =>
        let code := if delivery.failure.isSome then 1 else 0
        ⟨Display.shown s.quiet log, code, delivery.printed, delivery.disk, delivery.failure⟩

/-- The exit code of a run that the arguments stop. -/
def Stop.code : Stop → Nat
  | help => 0
  | usage => 2

/-- Run the command with arguments. -/
def run [Runtime] (disk : Disk) (arguments : List Text) : Outcome :=
  match Settings.ofTexts arguments with
  | .error stop => ⟨[], stop.code, [], disk, none⟩
  | .ok settings => runWith disk settings

end TestPlan.CommandLine
