import TestPlan.Expansion
import TestPlan.Yaml.Document

/-!
# Test cases

Resolving the definition of a test case: it is validated, held against the tag filter, and its steps are
expanded. A definition that is invalid, or whose inclusions go wrong, gives a failed test case that holds
nothing but the reason, and the reason is reported. A filter only selects: it never changes what a test
case becomes.
-/

namespace TestPlan

/-- The sum of counts. -/
def total (counts : List Nat) : Nat := counts.foldr (· + ·) 0

/-- A resolved test case, or one that could not be resolved and says why. -/
structure TestCase where
  name : Text
  originalFile : Text
  description : Text
  tags : List Value
  steps : List Text
  rawSteps : List Value
  error : Option Text

namespace TestCase

/-- How many instructions a test case has. -/
def stepCount (case : TestCase) : Nat := case.steps.length

/-- A test case that could not be resolved. -/
def failed (name originalFile error : Text) : TestCase :=
  ⟨name, originalFile, [], [], [], [], some error⟩

/-- What a report about a file calls it: its path, or its name where that is empty. -/
def label (name originalFile : Text) : Text := if originalFile.isEmpty then name else originalFile

/-- Report why a test case could not be resolved, and go on with a failed one. -/
def fail (name originalFile reported error : Text) : Run Failure (Option TestCase) := do
  Run.reportError ("Error processing test case " ++ label name originalFile ++ ": " ++ reported)
  return some (failed name originalFile error)

/-- The items of a list field of a definition, none if the field is absent. -/
def listField (definition : Value) (name : Text) : List Value := (definition.field name).items?.getD []

/-- Resolve a definition, letting every failure through. -/
def build (x : Expander) (definition : Value) (name originalFile : Text) (filter : Option Text) :
    Run Failure (Option TestCase) := do
  Run.ofExcept (requireValid .testCase definition (some name))
  let tags := (definition.field "tags").items?
  if ← Run.ofExcept ((TagFilter.passes filter tags).mapError .tag) then
    let rawSteps := listField definition "steps"
    let steps ← x.expand [] rawSteps
    return some {
      name := name
      originalFile := originalFile
      description := Parameter.descriptionOf definition
      tags := tags.getD []
      steps := steps
      rawSteps := rawSteps
      error := none }
  else return none

/-- Resolve a definition. Nothing is the result for a test case that the filter leaves out. -/
def resolve (x : Expander) (definition : Value) (name originalFile : Text) (filter : Option Text) :
    Run Failure (Option TestCase) :=
  tryCatch (build x definition name originalFile filter) fun
    | .definition e => fail name originalFile e.message e.message
    | .inclusion e =>
      if e.isWritable then fail name originalFile e.message e.message else throw (.write .tooManyDigits)
    | failure => throw failure

/-- Resolve the definition that a text holds. -/
def resolveText [Runtime] (x : Expander) (text name originalFile : Text) (filter : Option Text) :
    Run Failure (Option TestCase) :=
  match Yaml.read text with
  | .ok definition => resolve x definition name originalFile filter
  | .error .malformed =>
    fail name originalFile (Runtime.complaint text) (DefinitionError.malformed (Runtime.complaint text))
  | .error (.scalar fault) => Run.fail (.scalar fault)

end TestCase
end TestPlan
