import TestPlan.Value.Text

/-!
# Variable scopes

The names that a step may use. Parameters of the current include hide variables of the environment. A
name whose value cannot be written is bound all the same, but whoever needs its text fails
(`Scope.isWritable`).
-/

namespace TestPlan

/-- Two layers of named values. -/
structure Scope where
  parameters : Entries Value
  environment : Entries Value

namespace Scope

/-- The value bound to a name: a parameter if there is one, otherwise a variable of the environment. -/
def value? (scope : Scope) (name : Text) : Option Value :=
  (scope.parameters.find? name).or (scope.environment.find? name)

/-- The text bound to a name. -/
def lookup (scope : Scope) (name : Text) : Option Text :=
  (scope.value? name).map Value.parameterText

/-- Whether the value bound to a name can be written; a name that is not bound asks for no text. -/
def isWritable (scope : Scope) (name : Text) : Bool := (scope.value? name).all Value.isWritable

/-- The same environment under other parameters. -/
def withParameters (scope : Scope) (parameters : Entries Value) : Scope :=
  { scope with parameters }

end Scope
end TestPlan
