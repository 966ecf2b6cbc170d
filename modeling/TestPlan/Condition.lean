import TestPlan.Template
import TestPlan.Text.Split

/-!
# Conditions

The condition of a step is filled like any template and then read: `!=` compares for difference, `==`
for equality, and anything else holds unless it is `false` or empty. Operands are compared after
trimming white space and then quotes; that a truth value on the right is looked at first makes no
difference (`areEqual_iff`). A condition that is neither a text nor a truth value is reported and does not
hold, and so is one that cannot be filled.
-/

namespace TestPlan.Condition

/-- Whether a symbol is a quote that may stand around an operand. -/
def isQuote (s : Symbol) : Bool := s == '\'' || s == '"'

/-- An operand without white space and quotes around it. -/
def operand (text : Text) : Text := Text.trimBoth isQuote (Text.trim text)

/-- The two operands of the first occurrence of an operator; the second ends where the operator occurs
again. -/
def operands? (operator text : Text) : Option (Text × Text) :=
  (Text.cutWord? operator text).map fun (left, rest) =>
    let right := match Text.cutWord? operator rest with
      | some (right, _) => right
      | none => rest
    (operand left, operand right)

/-- Whether two operands are equal; a truth value on the right is asked for by its word. -/
def areEqual (left right : Text) : Bool :=
  if right == "true" then left == "true"
  else if right == "false" then left == "false"
  else left == right

/-- Asking for the word of a truth value is no different from comparing. -/
theorem areEqual_iff {left right : Text} : areEqual left right = true ↔ left = right := by
  unfold areEqual
  split
  next hright => rw [eq_of_beq hright, beq_iff_eq]
  · split
    next hright => rw [eq_of_beq hright, beq_iff_eq]
    · exact beq_iff_eq

/-- Whether a filled condition that compares nothing holds. -/
def isTruth (text : Text) : Bool :=
  if text == "true" then true
  else if text == "false" then false
  else !text.isEmpty

/-- Every text but the word for falsity and the empty one is a truth. -/
theorem isTruth_iff {text : Text} : isTruth text = true ↔ text ≠ "false" ∧ text ≠ [] := by
  unfold isTruth
  split
  next h => rw [eq_of_beq h]; decide
  · split
    next h => simp [eq_of_beq h]
    next h => simpa using fun _ => ne_of_beq_false (Bool.eq_false_iff.mpr h)

/-- Whether a filled condition holds. -/
def holds (text : Text) : Bool :=
  match operands? "!=" text with
  | some (left, right) => left != right
  | none =>
    match operands? "==" text with
    | some (left, right) => areEqual left right
    | none => isTruth text

/-- Report that a condition cannot be evaluated; it does not hold. -/
def reject {ε : Type} (condition reason : Text) : Run ε Bool := do
  Run.warn ("Error evaluating condition '" ++ condition ++ "': " ++ reason)
  return false

/-- Whether a condition that is a text holds in a scope. -/
def evaluateText {ε : Type} (scope : Scope) (condition : Text) : Run ε Bool :=
  let filled : Run WriteFault Text := Template.complete id scope condition
  match filled.outcome with
  | .ok text => ⟨filled.log, .ok (holds text)⟩
  | .error fault =>
    let rejected : Run ε Bool := reject condition fault.message
    ⟨filled.log ++ rejected.log, rejected.outcome⟩

/-- Whether a condition holds in a scope; an absent or empty one does. A condition of another kind that
cannot be written cannot be reported either. -/
def evaluate {ε : Type} (fault : WriteFault → ε) (scope : Scope) (condition : Value) : Run ε Bool :=
  match condition with
  | .scalar .null => pure true
  | .scalar (.bool b) => pure b
  | .scalar (.text s) => if s.isEmpty then pure true else evaluateText scope s
  | other =>
    match other.write Value.display with
    | .ok shown => reject shown ("expected a string, got " ++ other.kindName)
    | .error e => Run.fail (fault e)

end TestPlan.Condition
