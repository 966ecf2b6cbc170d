import TestPlan.Number.Typed
import TestPlan.Text.Split

/-!
# Command-line options

Reading the arguments of the command. Options may stand anywhere before a double hyphen; a long option may
be shortened as long as only one option starts that way, and takes its value after an equals sign or as
the next argument; short options may be written together, the last one with its value attached. An
attached value that is itself a double hyphen counts as none. Arguments that are no options name the
project, of which there is at most one.

First every argument is sorted out (`Argument.ofTexts`), which already refuses an ambiguous option; then
the arguments are taken in order (`Settings.ofArguments`).
-/

namespace TestPlan.CommandLine

/-- What the options say. -/
inductive Flag
  | help
  | environment
  | tags
  | file
  | suite
  | suites
  | output
  | indent
  | maxDepth
  | quiet
  deriving DecidableEq

/-- Whether an option needs a value. -/
def Flag.takesValue : Flag → Bool
  | help => false
  | suites => false
  | quiet => false
  | _ => true

/-- The options as they are written. -/
def spellings : List (Text × Flag) :=
  [("-h", .help), ("--help", .help), ("-e", .environment), ("--env", .environment), ("-t", .tags),
    ("--tags", .tags), ("--file", .file), ("--suite", .suite), ("--suites", .suites), ("-o", .output),
    ("--output", .output), ("--indent", .indent), ("--max-depth", .maxDepth), ("-q", .quiet),
    ("--quiet", .quiet)]

/-- The option with a spelling. -/
def flag? (spelling : Text) : Option Flag :=
  (spellings.find? fun (s, _) => s == spelling).map (·.2)

/-- Why the arguments give no settings. -/
inductive Stop
  /-- the user asks for help -/
  | help
  /-- the arguments are wrong -/
  | usage
  deriving DecidableEq

/-- An option as it was given: which one, whether in its short form, and what is attached to it, after an
equals sign or right behind a short option. -/
structure GivenOption where
  flag : Flag
  short : Bool
  attached : Option Text

/-- An argument, sorted out. -/
inductive Argument
  /-- the double hyphen after which there are no options -/
  | separator
  | word (text : Text)
  | option (given : GivenOption)
  | unknownOption

namespace Argument

/-- A spelling and what is attached to it with an equals sign. -/
def cutValue (text : Text) : Text × Option Text :=
  match Text.cut? '=' text with
  | some (before, after) => (before, some after)
  | none => (text, none)

/-- The options that a text can mean without being spelled out: long ones that start so, or a short one
with the rest attached. -/
def candidates (text : Text) : List GivenOption :=
  match text with
  | .char '-' :: .char '-' :: _ =>
    let (start, attached) := cutValue text
    (spellings.filter fun (spelling, _) => start.isPrefixOf spelling).map fun (_, flag) =>
      ⟨flag, false, attached⟩
  | .char '-' :: letter :: rest =>
    ((flag? [.char '-', letter]).map fun flag => ⟨flag, true, some rest⟩).toList
  | _ => []

/-- Whether a spelling is a short one. -/
def isShort (spelling : Text) : Bool := spelling.getD 1 '-' != '-'

/-- Sort out one argument before any double hyphen. -/
def ofText (text : Text) : Except Stop Argument :=
  let (spelling, attached) := cutValue text
  if text.head? != some '-' || text.length = 1 then .ok (.word text)
  else
    match flag? text, flag? spelling with
    | some flag, _ => .ok (.option ⟨flag, isShort text, none⟩)
    | none, some flag => .ok (.option ⟨flag, isShort spelling, attached⟩)
    | none, none =>
      match candidates text with
      | [given] => .ok (.option given)
      | _ :: _ :: _ => .error .usage
      | [] => .ok (if Text.isNegativeNumber text || text.contains ' ' then .word text else .unknownOption)

/-- Sort out all arguments. -/
def ofTexts : List Text → Except Stop (List Argument)
  | [] => .ok []
  | text :: rest =>
    if text = "--" then .ok (.separator :: rest.map .word)
    else do
      let first ← ofText text
      return first :: (← ofTexts rest)

end Argument

/-- What the command is asked to do. Whatever needs a value is missing if it was given none. -/
structure Settings where
  project : Text
  environment : Option Text
  tagFilter : Option Text
  file : Option Text
  suite : Option Text
  suites : Bool
  output : Option Text
  indent : Option Int
  maxDepth : Option Int
  quiet : Bool

namespace Settings

/-- What is done without any argument. -/
def default : Settings where
  project := "."
  environment := some "dev"
  tagFilter := none
  file := none
  suite := none
  suites := false
  output := none
  indent := some 2
  maxDepth := some 10
  quiet := false

/-- An integer that an option asks for. -/
def int (text : Text) : Except Stop Int :=
  match Number.readTyped 10 text with
  | .ok n => .ok n
  | .error _ => .error .usage

/-- Settings after one more option with its value; flags have none. -/
def apply (s : Settings) (flag : Flag) (value : Option Text) : Except Stop Settings :=
  match flag with
  | .help => .error .help
  | .environment => .ok { s with environment := value }
  | .tags => .ok { s with tagFilter := value }
  | .file => .ok { s with file := value }
  | .suite => .ok { s with suite := value }
  | .suites => .ok { s with suites := true }
  | .output => .ok { s with output := value }
  | .indent => return { s with indent := ← value.mapM int }
  | .maxDepth => return { s with maxDepth := ← value.mapM int }
  | .quiet => .ok { s with quiet := true }

/-- The options that one argument means, each with its value, and the arguments left. -/
structure Unfolded where
  options : List (Flag × Option Text)
  rest : List Argument

/-- The value that a text attached to an option stands for: a double hyphen is no value. -/
def attachedValue (text : Text) : Option Text := if text = "--" then none else some text

/-- An option without anything attached: its value is the next argument, if it needs one. -/
def unfoldAlone (flag : Flag) (rest : List Argument) : Except Stop Unfolded :=
  if flag.takesValue then
    match rest with
    | .word value :: rest => .ok ⟨[(flag, some value)], rest⟩
    | _ => .error .usage
  else .ok ⟨[(flag, none)], rest⟩

/-- A short option with something attached: its value, or else the letters of more short options, of which
the last may have its own value. -/
def unfoldShort (flag : Flag) (rest : List Argument) : Text → Except Stop Unfolded
  | [] => if flag.takesValue then .ok ⟨[(flag, some [])], rest⟩ else .error .usage
  | letter :: more =>
    if flag.takesValue then .ok ⟨[(flag, attachedValue (letter :: more))], rest⟩
    else
      match flag? [.char '-', letter] with
      | none => .error .usage
      | some next => do
        let others ← if more.isEmpty then unfoldAlone next rest else unfoldShort next rest more
        return { others with options := (flag, none) :: others.options }

/-- The options that an argument means. -/
def unfold (given : GivenOption) (rest : List Argument) : Except Stop Unfolded :=
  match given.attached with
  | none => unfoldAlone given.flag rest
  | some attached =>
    if given.short then unfoldShort given.flag rest attached
    else if given.flag.takesValue then .ok ⟨[(given.flag, attachedValue attached)], rest⟩
    else .error .usage

/-- Whether an argument is the double hyphen. -/
def isSeparator : Argument → Bool
  | .separator => true
  | _ => false

/-- The project that the arguments at a place name, which may be none, and the arguments left. -/
def takeProject (arguments : List Argument) : Option Text × List Argument :=
  match arguments.dropWhile isSeparator with
  | .word text :: rest => (some text, rest.dropWhile isSeparator)
  | rest => (none, rest)

/-- Take the arguments in order. `named` says that the project has had its place, and `extra` that there
has been something that no place is for. The first argument bounds the number of arguments. -/
def take : Nat → (named extra : Bool) → Settings → List Argument → Except Stop Settings
  | _, _, extra, s, [] => if extra then .error .usage else .ok s
  | 0, _, _, _, _ => .error .usage
  | fuel + 1, named, extra, s, argument :: rest =>
    match argument with
    | .option given => do
      let found ← unfold given rest
      let s ← found.options.foldlM (fun s (flag, value) => s.apply flag value) s
      take fuel named extra s found.rest
    | .unknownOption => take fuel named true s rest
    | _ =>
      if named then take fuel true true s rest
      else
        let (project, rest) := takeProject (argument :: rest)
        take fuel true extra { s with project := project.getD s.project } rest

/-- The settings that arguments give. -/
def ofArguments (arguments : List Argument) : Except Stop Settings :=
  take (arguments.length + 1) false false default arguments

/-- The settings that the command is called with. -/
def ofTexts (texts : List Text) : Except Stop Settings := do ofArguments (← Argument.ofTexts texts)

end Settings
end TestPlan.CommandLine
