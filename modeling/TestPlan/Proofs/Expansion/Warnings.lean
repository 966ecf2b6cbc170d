import TestPlan.Proofs.Expansion.Equations

/-!
# What an expansion reports

Expanding steps reports nothing but warnings: names that are not bound, conditions that cannot be evaluated,
and libraries that are not there. So an error that is reported about a test case is reported after its
expansion, not by it.
-/

namespace TestPlan

/-- All messages of a run are warnings. -/
def Run.OnlyWarns {ε α : Type} (run : Run ε α) : Prop := ∀ message ∈ run.log, message.severity = .warning

namespace Run.OnlyWarns

variable {ε α β : Type}

/-- A run that reports nothing only warns. -/
theorem of_empty {run : Run ε α} (h : run.log = []) : run.OnlyWarns := by simp [OnlyWarns, h]

/-- A sequence of two runs only warns if both do. -/
theorem bind {first : Run ε α} {next : α → Run ε β} (hfirst : first.OnlyWarns)
    (hnext : ∀ a, (next a).OnlyWarns) : (first >>= next).OnlyWarns := by
  cases h : first.outcome with
  | error e =>
    rw [Run.bind_of_error h]
    exact hfirst
  | ok a =>
    rw [Run.bind_of_ok h]
    exact fun message hmessage => (List.mem_append.mp hmessage).elim (hfirst message) (hnext a message)

/-- A run after other messages only warns if those are warnings. -/
theorem after {run : Run ε (List β)} (h : run.OnlyWarns) {earlier : List Message}
    (hearlier : ∀ message ∈ earlier, message.severity = .warning) (before : List β) :
    (run.after earlier before).OnlyWarns :=
  fun message hmessage => (List.mem_append.mp hmessage).elim (hearlier message) (h message)

end Run.OnlyWarns

/-- Filling a template only warns. -/
theorem Template.complete_onlyWarns {ε : Type} (fault : WriteFault → ε) (scope : Scope) (template : Text) :
    (complete fault scope template).OnlyWarns := by
  have hwarn (names : List Text) : ∀ message ∈ names.map unboundWarning, message.severity = .warning := by
    simp [unboundWarning]
  rw [complete]
  split
  · exact hwarn _
  · exact hwarn _

namespace Condition

variable {ε : Type}

/-- A condition that is rejected is rejected with a warning. -/
theorem reject_onlyWarns (condition reason : Text) : (reject condition reason : Run ε Bool).OnlyWarns := by
  simp [Run.OnlyWarns, reject, Run.warn, Run.report, Run.bind_of_ok]

/-- Evaluating a condition only warns. -/
theorem evaluate_onlyWarns (fault : WriteFault → ε) (scope : Scope) (condition : Value) :
    (evaluate fault scope condition).OnlyWarns := by
  have htext (template : Text) : (evaluateText scope template : Run ε Bool).OnlyWarns := by
    have hfill := Template.complete_onlyWarns id scope template
    rw [evaluateText]
    split
    · exact hfill
    next fault _ =>
      exact fun message hmessage => (List.mem_append.mp hmessage).elim (hfill message)
        (reject_onlyWarns (ε := ε) template fault.message message)
  unfold evaluate
  split
  · exact .of_empty rfl
  · exact .of_empty rfl
  next template =>
    split
    · exact .of_empty rfl
    · exact htext template
  · split
    · exact reject_onlyWarns _ _
    · exact .of_empty rfl

end Condition

/-- Looking at a step only warns. -/
theorem StepNode.action_onlyWarns (node : StepNode) (scope : Scope) : (node.action scope).OnlyWarns := by
  have hwrite (template : Text) : (Action.writeFilled scope template).OnlyWarns :=
    (Template.complete_onlyWarns _ scope template).bind fun _ => .of_empty rfl
  cases node with
  | text template => exact hwrite template
  | conditional condition step steps =>
    exact (Condition.evaluate_onlyWarns _ scope condition).bind fun holds => by
      cases holds <;> exact .of_empty rfl
  | inclusion library given => exact .of_empty rfl
  | nameless => exact .of_empty rfl
  | structured value =>
    rw [action]
    split
    · exact hwrite _
    · exact .of_empty rfl

/-- Expanding steps only warns. -/
theorem Expands.onlyWarns {x : Expander} {chain : IncludeChain} {p : Entries Value} {nodes : List StepNode}
    {run : Run Failure (List Text)} (h : Expands x chain p nodes run) : run.OnlyWarns := by
  have happend {node : StepNode} {p : Entries Value} {later : List Message}
      (hlater : ∀ message ∈ later, message.severity = .warning) :
      ∀ message ∈ (node.action (x.scope p)).log ++ later, message.severity = .warning :=
    fun message hmessage => (List.mem_append.mp hmessage).elim
      (node.action_onlyWarns (x.scope p) message) (hlater message)
  induction h with
  | nil => exact .of_empty rfl
  | fault => exact StepNode.action_onlyWarns _ _
  | write _ _ ih => exact ih.after (StepNode.action_onlyWarns _ _) _
  | descend _ _ ih => exact ih.after (StepNode.action_onlyWarns _ _) _
  | unknown _ _ _ ih => exact ih.after (happend (by simp [missingWarning])) _
  | refused => exact StepNode.action_onlyWarns _ _
  | entered _ _ _ _ _ _ ihinner ihrest => exact ihrest.after (happend ihinner) _
  | failed _ _ _ _ _ ihinner => exact happend ihinner

/-- Expanding the steps of a test case only warns. -/
theorem Expander.expand_onlyWarns {x : Expander} {d : Int} {steps : List Value} (hd : x.maxDepth = some d)
    (htable : x.libraries.IsPlain) (hsteps : ∀ step ∈ steps, step.isPlain = true) (p : Entries Value) :
    (x.expand p steps).OnlyWarns := (expands_expand hd htable hsteps).onlyWarns

end TestPlan
