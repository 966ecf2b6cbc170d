import TestPlan.CommandLine.Run

/-!
# The command

The command as a program. What it does is decided by `CommandLine.run`; this module only looks at the
files that a run may ask for, hands them over, and carries out what comes back: messages go to standard
error, the report to standard output or to its file.
-/

namespace TestPlan.Main

attribute [local instance] Runtime.plain

/-- What the command says about its arguments. -/
def usage : String :=
  "usage: [-h] [-e ENVIRONMENT] [-t TAGS] [--file FILE] [--suite SUITE] [--suites] [-o OUTPUT]\n" ++
    "       [--indent N] [--max-depth N] [-q] [project]\n\n" ++
    "Resolve the test cases and test suites of a project into lists of instructions.\n"

/-- The names in a directory, if a path leads to one. -/
def directory? (path : Path) : IO (Option (List Text)) := do
  try
    let entries ← (← IO.FS.realPath path.text.visible).readDir
    return some (entries.toList.map fun entry => .ofString entry.fileName)
  catch _ => return none

/-- The bytes of a file, if a path leads to one. -/
def file? (path : Path) : IO (Option (List UInt8)) := do
  try
    return some (← IO.FS.readBinFile path.text.visible).toList
  catch _ => return none

/-- Take down what is at an absolute path: nothing, a directory, or a file with its bytes. -/
def record (disk : Disk) (path : Path) : IO Disk := do
  if (← directory? path).isSome then return (disk.makeDirectories path).toOption.getD disk
  match ← file? path with
  | none => return disk
  | some bytes =>
    return ((disk.makeDirectories path.parent).bind (·.writeBytes path bytes)).toOption.getD disk

/-- Take down what is at a path and at everything on the way to it. -/
def recordWay (disk : Disk) (path : Path) : IO Disk :=
  (List.range (path.names.length + 1)).foldlM
    (fun disk count => record disk { path with names := path.names.take count }) disk

/-- Take down a directory with the definitions in it. -/
def recordDefinitions (disk : Disk) (directory : Path) : IO Disk := do
  let disk ← record disk directory
  let names := (← directory? directory).getD []
  let files := names.map fun name => { directory with names := directory.names ++ [name] }
  (files.filter Disk.isDefinition).foldlM record disk

/-- The files that a run with these settings may ask for. -/
def recordProject (disk : Disk) (s : CommandLine.Settings) : IO Disk := do
  let root := CommandLine.absolute disk (Path.ofText s.project)
  let config := CommandLine.configOf root s
  let disk ← recordWay disk root
  let disk ← recordWay disk (CommandLine.absolute disk config.profileFile)
  let disk ← [config.stepsDirectory, config.casesDirectory, config.suitesDirectory].foldlM
    recordDefinitions disk
  let asked := (s.file.map config.casesDirectory.below).toList ++
    (s.suite.map config.suitesDirectory.below).toList
  let disk ← asked.foldlM (fun disk path => recordWay disk (CommandLine.absolute disk path)) disk
  let suites := disk.definitionFiles config.suitesDirectory ++
    (s.suite.map config.suitesDirectory.below).toList
  let references := Project.referencedPaths ⟨config, [], []⟩ disk suites
  let disk ← references.foldlM (fun disk path => recordWay disk (CommandLine.absolute disk path)) disk
  match s.output with
  | none => return disk
  | some output => recordWay disk (CommandLine.absolute disk (Path.ofText output))

/-- Write the report of a run to its file. -/
def writeReport (outcome : CommandLine.Outcome) (output : Text) : IO Unit := do
  let path := Path.ofText output
  match outcome.disk.readBytes path with
  | .ok bytes => do
    IO.FS.createDirAll path.parent.text.visible
    IO.FS.writeBinFile path.text.visible ⟨bytes.toArray⟩
  | .error _ => return

/-- Run the command with its arguments. -/
def run (arguments : List String) : IO UInt32 := do
  let here := Path.ofText (← IO.currentDir).toString
  let empty : Disk := ⟨.emptyDirectory, here.names⟩
  match CommandLine.Settings.ofTexts (arguments.map .ofString) with
  | .error stop =>
    if stop.code = 0 then IO.print usage else IO.eprint usage
    return stop.code.toUInt32
  | .ok settings => do
    let disk ← recordWay empty here
    let outcome := CommandLine.runWith (← recordProject disk settings) settings
    for message in outcome.shown do
      IO.eprintln (Display.plain message).visible
    if outcome.code = 0 || outcome.escaped matches some (.halves _) then
      match Project.chosen? settings.output with
      | some output => writeReport outcome output
      | none => IO.print outcome.printed.visible
    if let some failure := outcome.escaped then IO.eprintln failure.message.visible
    return outcome.code.toUInt32

end TestPlan.Main

/-- The program. -/
def main (arguments : List String) : IO UInt32 := TestPlan.Main.run arguments
