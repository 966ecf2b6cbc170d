import TestPlan.Failure
import TestPlan.Yaml.Document

/-!
# Step libraries

A step library is a named list of steps with declared parameters. A parameter without a default, or with
a null default, has none. Libraries are kept in a table under their names: a library that comes again
takes the place of the earlier one.
-/

namespace TestPlan

/-- A declared parameter of a library. -/
structure Parameter where
  name : Text
  description : Text
  default : Option Text
  deriving DecidableEq

namespace Parameter

/-- The text of a description, empty when there is none. -/
def descriptionOf (definition : Value) : Text := ((definition.field "description").text?).getD []

/-- The default that a value stands for. -/
def defaultOf? (v : Value) : Except WriteFault (Option Text) :=
  if v.isNull then .ok none else some <$> v.write Value.parameterText

/-- The parameter that an entry of a valid library declares. -/
def ofValue (v : Value) : Except WriteFault Parameter := do
  return {
    name := ((v.field "name").text?).getD []
    description := descriptionOf v
    default := ← defaultOf? (v.field "default") }

end Parameter

/-- A named sequence of steps. -/
structure StepLibrary where
  name : Text
  description : Text
  parameters : List Parameter
  steps : List Value

namespace StepLibrary

/-- The library that a document describes. -/
def ofDocument (name : Text) (document : Value) : Except Failure StepLibrary := do
  requireValid .stepLibrary document (some name)
  let declared := ((document.field "parameters").items?).getD []
  return {
    name := name
    description := Parameter.descriptionOf document
    parameters := ← (declared.mapM Parameter.ofValue).mapError .write
    steps := ((document.field "steps").items?).getD [] }

/-- The library that a text describes. -/
def ofText [Runtime] (name text : Text) : Except Failure StepLibrary :=
  match Yaml.read text with
  | .ok document => ofDocument name document
  | .error .malformed => .error (.definition (.unreadable name (Runtime.complaint text)))
  | .error (.scalar fault) => .error (.scalar fault)

/-- The declared defaults; of two for one name the later counts. -/
def defaults (library : StepLibrary) : Entries Value :=
  Entries.ofList <| library.parameters.filterMap fun p =>
    p.default.map fun text => (Scalar.text p.name, Value.text text)

/-- The parameters of an inclusion: what is given, and declared defaults for the rest. -/
def resolveParameters (library : StepLibrary) (given : Entries Value) : Entries Value :=
  library.defaults.overlay given

end StepLibrary

/-- Step libraries in the order in which their names were first seen. -/
abbrev LibraryTable := List StepLibrary

namespace LibraryTable

/-- Put a library into the table, in the place of one with its name. -/
def put (library : StepLibrary) : LibraryTable → LibraryTable
  | [] => [library]
  | other :: rest => if other.name = library.name then library :: rest else other :: put library rest

/-- The library with a name. -/
def get? (table : LibraryTable) (name : Text) : Option StepLibrary :=
  table.find? fun library => library.name == name

/-- The names of the libraries, in order. -/
def names (table : LibraryTable) : List Text := table.map (·.name)

/-- A library that is found is among those that are named. -/
theorem mem_names_of_get? {table : LibraryTable} {name : Text} {library : StepLibrary}
    (h : table.get? name = some library) : name ∈ table.names := by
  have hmem := List.mem_of_find?_eq_some h
  have hname := List.find?_some h
  simp only [beq_iff_eq] at hname
  exact List.mem_map.mpr ⟨library, hmem, hname⟩

end LibraryTable
end TestPlan
