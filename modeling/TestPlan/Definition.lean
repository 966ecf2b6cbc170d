import TestPlan.Value.Text
import TestPlan.Yaml.Error

/-!
# Definitions and their problems

Test cases, test suites and step libraries are described by documents of a fixed shape. A `Check` looks
at a value and lists what is wrong with it; checks are put together from four parts: the kinds a value
may have, what its fields may be, what its items may be, and which fields must be there. A document is
valid when its check finds nothing.

Problems are listed in the order of their full descriptions (`Problem.order`), which begin with the
message, then name the violated rule, then the place in the document. Fields that a check does not
mention, and the order of fields in the document, play no part. A problem of a value that cannot be
written cannot be described (`Problem.writable`).
-/

namespace TestPlan

/-- What a document describes. -/
inductive DocumentKind
  | testCase
  | testSuite
  | stepLibrary
  deriving DecidableEq

/-- The name of a document kind in messages. -/
def DocumentKind.name : DocumentKind → String
  | testCase => "test case"
  | testSuite => "test suite"
  | stepLibrary => "step library"

/-- The kinds of values that checks tell apart. -/
inductive ValueKind
  | mapping
  | list
  | text
  | number
  | truth
  | null
  deriving DecidableEq

/-- The name of a value kind in messages. -/
def ValueKind.name : ValueKind → String
  | mapping => "object"
  | list => "array"
  | text => "string"
  | number => "number"
  | truth => "boolean"
  | null => "null"

/-- The kind of a value; dates, bytes, pairs and sets have none. -/
def Value.kind? (v : Value) : Option ValueKind :=
  match v.view with
  | .scalar .null => some .null
  | .scalar (.bool _) => some .truth
  | .scalar (.int _) => some .number
  | .scalar (.float _) => some .number
  | .scalar (.text _) => some .text
  | .scalar (.date _) => none
  | .scalar (.datetime _) => none
  | .scalar (.bytes _) => none
  | .list _ => some .list
  | .map _ => some .mapping
  | .pair .. => none
  | .set _ => none

/-- A step on the way from a document to one of its parts. -/
inductive Place
  | field (name : String)
  | item (index : Nat)
  deriving DecidableEq

/-- A step as a message shows it in a path. -/
def Place.text : Place → Text
  | field name => name
  | item index => Number.text index

/-- A step as a description shows it in brackets. -/
def Place.literal : Place → Text
  | field name => Text.quote name
  | item index => Number.text index

/-- What can be wrong with a value. -/
inductive Flaw
  /-- the value, shown as its literal, has none of the allowed kinds -/
  | kind (literal : Text) (allowed : List ValueKind)
  /-- a field is missing -/
  | missing (name : String)
  deriving DecidableEq

namespace Flaw

/-- What a message says about a flaw. -/
def message : Flaw → Text
  | kind literal allowed =>
    literal ++ " is not of type " ++ Text.listed (allowed.map fun k => Text.quote k.name)
  | missing name => Text.quote name ++ " is a required property"

/-- The keyword of the rule that a flaw violates. -/
def keyword : Flaw → String
  | kind .. => "type"
  | missing _ => "required"

end Flaw

/-- A flaw, where in the document it is, and where in the rules it is forbidden. -/
structure Problem where
  flaw : Flaw
  place : List Place
  rule : List String
  /-- the value that has the flaw can be written -/
  writable : Bool
  deriving DecidableEq

namespace Problem

/-- A problem as an error message lists it. -/
def text (p : Problem) : Text :=
  (if p.place.isEmpty then "root" else Text.joinWith "." (p.place.map Place.text) : Text) ++ ": " ++
    p.flaw.message

/-- A name followed by a path in brackets. -/
def indexed (name : String) (path : List Text) : Text :=
  name ++ path.flatMap fun (part : Text) => ("[" ++ part ++ "]" : Text)

/-- What the full description of a problem begins with, as far as two descriptions can differ. -/
def order (p : Problem) : Text :=
  p.flaw.message ++ "\n\nFailed validating " ++ Text.quote p.flaw.keyword ++ " in " ++
    indexed "schema" (p.rule.map fun (part : String) => Text.quote part) ++ ":\n\nOn " ++
    indexed "instance" (p.place.map Place.literal) ++ ":\n"

end Problem

/-- Where a check stands in a document and in the rules. -/
structure Position where
  place : List Place
  rule : List String

/-- A check lists the problems of a value. -/
def Check := Position → Value → List Problem

namespace Check

/-- The value has one of these kinds. -/
def kinds (allowed : List ValueKind) : Check := fun at_ v =>
  if v.kind?.any allowed.contains then []
  else [⟨.kind v.literal allowed, at_.place, at_.rule, v.isWritable⟩]

/-- In a mapping, this field is there. -/
def requires (name : String) : Check := fun at_ v =>
  match v.entries? with
  | some entries =>
    if (entries.find? name).isSome then [] else [⟨.missing name, at_.place, at_.rule, v.isWritable⟩]
  | none => []

/-- In a mapping, the value of this field passes a check if it is there. -/
def field (name : String) (check : Check) : Check := fun at_ v =>
  match v.field? name with
  | some part => check ⟨at_.place ++ [.field name], at_.rule ++ ["properties", name]⟩ part
  | none => []

/-- In a list, all items pass a check. -/
def items (check : Check) : Check := fun at_ v =>
  match v.items? with
  | some parts =>
    parts.zipIdx.flatMap fun (part, i) => check ⟨at_.place ++ [.item i], at_.rule ++ ["items"]⟩ part
  | none => []

/-- The value passes all of these checks. -/
def all (checks : List Check) : Check := fun at_ v => checks.flatMap fun check => check at_ v

/-- A text or nothing. -/
def optionalText : Check := kinds [.text, .null]

/-- A list or nothing. -/
def optionalList : Check := kinds [.list, .null]

/-- A list of texts, numbers and truth values, or nothing. -/
def optionalTags : Check := all [optionalList, items (kinds [.text, .number, .truth])]

/-- A list of texts, or nothing. -/
def optionalTexts : Check := all [optionalList, items (kinds [.text])]

/-- A mapping that declares a parameter. -/
def parameter : Check :=
  all [kinds [.mapping], requires "name", field "name" (kinds [.text]), field "description" optionalText,
    field "default" (kinds [.text, .number, .truth, .null])]

/-- The check for a document of a kind. -/
def document : DocumentKind → Check
  | .testCase =>
    all [kinds [.mapping], field "description" optionalText, field "tags" optionalTags,
      field "steps" optionalList]
  | .testSuite =>
    all [kinds [.mapping], field "name" optionalText, field "description" optionalText,
      field "tags" optionalTags, field "test-cases" optionalList, field "pre-actions" optionalTexts,
      field "post-actions" optionalTexts]
  | .stepLibrary =>
    all [kinds [.mapping], field "description" optionalText,
      field "parameters" (all [optionalList, items parameter]), field "steps" optionalList]

end Check

/-- The problems of a document, in order. -/
def problems (kind : DocumentKind) (v : Value) : List Problem :=
  (Check.document kind ⟨[], []⟩ v).mergeSort fun a b => Text.precedes a.order b.order

/-- Why a definition cannot be used. -/
inductive DefinitionError
  /-- the document is empty -/
  | empty (source : Option Text)
  /-- the document has the wrong shape -/
  | invalid (kind : DocumentKind) (source : Option Text) (problems : List Problem)
  /-- the text is no document, for this reason -/
  | unreadable (source reason : Text)
  /-- a reference to a test case is neither a text nor a mapping with a path -/
  | reference
  /-- a referenced test case is not there -/
  | missingCase (path : Text)
  /-- a referenced test case cannot be read -/
  | unreadableCase (path reason : Text)
  deriving DecidableEq

namespace DefinitionError

/-- What is said about a text that is no document. -/
def malformed (reason : Text) : Text := "YAML parse error: " ++ reason

/-- What an error says. -/
def message : DefinitionError → Text
  | empty _ => "Invalid YAML content"
  | invalid kind _ problems =>
    "Invalid " ++ kind.name ++ ": " ++ Text.joinWith "; " (problems.map Problem.text)
  | unreadable _ reason => malformed reason
  | reference => "Invalid test case reference format"
  | missingCase path => "Test case file not found: " ++ path
  | unreadableCase path reason => "Cannot read test case " ++ path ++ ": " ++ reason

/-- The document that an error is about. -/
def source : DefinitionError → Option Text
  | empty source => source
  | invalid _ source _ => source
  | unreadable source _ => some source
  | _ => none

/-- The problems that an error lists. -/
def problems : DefinitionError → List Problem
  | invalid _ _ problems => problems
  | _ => []

end DefinitionError

/-- Whether a value is a valid document of a kind; `source` names it in errors. -/
def validate (kind : DocumentKind) (v : Value) (source : Option Text) : Except DefinitionError Unit :=
  if v.isNull then .error (.empty source)
  else
    match problems kind v with
    | [] => .ok ()
    | found => .error (.invalid kind source found)

end TestPlan
