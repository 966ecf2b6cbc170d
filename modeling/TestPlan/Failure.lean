import TestPlan.Definition
import TestPlan.Files.Tree
import TestPlan.IncludeChain
import TestPlan.Step
import TestPlan.TagFilter

/-!
# Failures

Everything that can end a run, by cause. Definitions and inclusions fail in ways that resolving a test
case turns into a reported error; the other causes end the run as a whole.
-/

namespace TestPlan

/-- Why a report cannot be laid out. -/
inductive LayoutFault
  /-- the indentation is no number -/
  | noNumber
  /-- the indentation is no machine word -/
  | noWord
  /-- the indentation does not fit into memory -/
  | tooWide
  deriving DecidableEq

/-- What a fault says. -/
def LayoutFault.message : LayoutFault → String
  | noNumber => "can't multiply sequence by non-int of type 'list'"
  | noWord => "cannot fit 'int' into an index-sized integer"
  | tooWide => ""

/-- Why a run ended without a result. -/
inductive Failure
  | definition (error : DefinitionError)
  | inclusion (error : IncludeError)
  | step (fault : StepFault)
  | tag (fault : TagFault)
  | scalar (fault : Yaml.ScalarFault)
  | file (error : FileError)
  | encoding (fault : Text.Utf8Fault)
  /-- a text that is to become bytes has halves of characters in it -/
  | halves (found : Text.Halves)
  /-- a value whose text is needed cannot be written -/
  | write (fault : WriteFault)
  /-- a report has no JSON form -/
  | report (fault : JsonFault)
  /-- a report cannot be laid out -/
  | layout (fault : LayoutFault)
  /-- the depth of inclusions is limited by something that is no number -/
  | depthLimit
  /-- a step that should be an inclusion is none; its literal is given -/
  | notAnInclusion (literal : Text)
  deriving DecidableEq

namespace Failure

/-- What a failure says. -/
def message : Failure → Text
  | definition error => error.message
  | inclusion error => error.message
  | step fault => fault.message
  | scalar fault => fault.message
  | file error => error.message
  | encoding fault => fault.message
  | halves found => found.message
  | tag fault => "unhashable type: " ++ Text.quote fault.kind
  | write fault => fault.message
  | report fault => fault.message
  | layout fault => fault.message
  | depthLimit => "'>=' not supported between instances of 'int' and 'list'"
  | notAnInclusion literal => "Not an include step: " ++ literal

end Failure

/-- Make sure that a value is a valid document of a kind. The problems of a document that is not are told
by its values, so they have to be values that can be written. -/
def requireValid (kind : DocumentKind) (v : Value) (source : Option Text) : Except Failure Unit :=
  if (problems kind v).all Problem.writable then (validate kind v source).mapError .definition
  else .error (.write .tooManyDigits)

end TestPlan
