import TestPlan.Expansion
import TestPlan.Proofs.PlainStep
import TestPlan.Proofs.Sequence

/-!
# Expansion by actions

A step that is looked at in a scope asks for one of three things: to write lines, to go on with the steps
that it guards, or to enter a library (`StepNode.action`). Each kind of step asks for its own. Running a
step without self-reference is carrying out what it asks for (`StepContext.run_eq_interpret`), at the top
level of a test case as well (`StepContext.runTop_eq_interpret`).
-/

namespace TestPlan

/-- What a step asks for once it has been looked at. -/
inductive Action
  /-- these lines stand for the step -/
  | write (lines : List Text)
  /-- the steps that it guards stand for the step -/
  | descend
  /-- the steps of a library stand for the step -/
  | enter (library : Text) (given : Entries Value)

/-- Fill a template into a line. -/
def Action.writeFilled (scope : Scope) (template : Text) : Run Failure Action := do
  return .write [← Template.complete (Failure.step ∘ .write) scope template]

/-- What a step asks for in a scope. -/
def StepNode.action (scope : Scope) : StepNode → Run Failure Action
  | .text template => Action.writeFilled scope template
  | .conditional condition _ _ => do
    if ← Condition.evaluate (Failure.step ∘ .write) scope condition then return .descend
    else return .write []
  | .inclusion library given => return .enter library given
  | .nameless => Run.fail (.step (.write .tooManyDigits))
  | .structured value =>
    match value.stepText with
    | .ok template => Action.writeFilled scope template
    | .error fault => Run.fail (.step (.text fault))

/-- What is written for a template is its filling. -/
theorem Action.writeFilled_eq_ok {scope : Scope} {template : Text} {asked : Action}
    (h : (writeFilled scope template).outcome = .ok asked) :
    ∃ line, Template.complete (Failure.step ∘ .write) scope template =
      ⟨(writeFilled scope template).log, .ok line⟩ ∧ asked = .write [line] := by
  cases hfill : (Template.complete (Failure.step ∘ .write) scope template).outcome with
  | ok line =>
    rw [writeFilled, Run.bind_of_ok hfill] at h ⊢
    exact ⟨line, by ext1 <;> simp [hfill], (Except.ok.inj h).symm⟩
  | error e => simp [writeFilled, Run.bind_of_error hfill] at h

namespace StepNode

variable {scope : Scope} {node : StepNode}

/-- What a conditional step asks for depends on its condition only. -/
theorem action_conditional_eq_ok {condition step : Value} {steps : Option (List Value)} {asked : Action}
    (h : ((conditional condition step steps).action scope).outcome = .ok asked) :
    ∃ holds, Condition.evaluate (Failure.step ∘ .write) scope condition =
        ⟨((conditional condition step steps).action scope).log, .ok holds⟩ ∧
      asked = if holds then .descend else .write [] := by
  cases hcondition : (Condition.evaluate (Failure.step ∘ .write) scope condition).outcome with
  | ok holds =>
    rw [action, Run.bind_of_ok hcondition] at h ⊢
    refine ⟨holds, ?_, ?_⟩
    · ext1
      · cases holds <;> simp
      · exact hcondition
    · cases holds <;> exact (Except.ok.inj h).symm
  | error e => simp [action, Run.bind_of_error hcondition] at h

/-- What a structured step asks for is to write its text. -/
theorem action_structured_eq_ok {v : Value} {asked : Action}
    (h : ((structured v).action scope).outcome = .ok asked) :
    ∃ template, v.stepText = .ok template ∧
      (structured v).action scope = Action.writeFilled scope template := by
  rw [action] at h ⊢
  split at h
  next template htext => exact ⟨template, htext, rfl⟩
  · simp [Run.fail] at h

/-- Only a conditional step whose condition holds asks to go on with the steps that it guards. -/
theorem eq_conditional_of_descend (h : (node.action scope).outcome = .ok .descend) :
    ∃ condition step steps, node = conditional condition step steps ∧
      Condition.evaluate (Failure.step ∘ .write) scope condition = ⟨(node.action scope).log, .ok true⟩ := by
  cases node with
  | text template =>
    obtain ⟨line, -, hline⟩ := Action.writeFilled_eq_ok h
    simp at hline
  | conditional condition step steps =>
    obtain ⟨holds, hcondition, hdescend⟩ := action_conditional_eq_ok h
    cases holds with
    | true => exact ⟨condition, step, steps, rfl, hcondition⟩
    | false => simp at hdescend
  | inclusion library given => simp [action] at h
  | nameless => simp [action, Run.fail] at h
  | structured v =>
    obtain ⟨template, -, htext⟩ := action_structured_eq_ok h
    rw [htext] at h
    obtain ⟨line, -, hline⟩ := Action.writeFilled_eq_ok h
    simp at hline

/-- Only an inclusion asks to enter a library. -/
theorem eq_inclusion_of_enter {name : Text} {given : Entries Value}
    (h : (node.action scope).outcome = .ok (.enter name given)) : node = .inclusion name given := by
  cases node with
  | text template =>
    obtain ⟨line, -, hline⟩ := Action.writeFilled_eq_ok h
    simp at hline
  | conditional condition step steps =>
    obtain ⟨holds, -, henter⟩ := action_conditional_eq_ok h
    cases holds <;> simp at henter
  | inclusion library parameters =>
    obtain ⟨rfl, rfl⟩ := Action.enter.inj (Except.ok.inj h)
    rfl
  | nameless => simp [action, Run.fail] at h
  | structured v =>
    obtain ⟨template, -, htext⟩ := action_structured_eq_ok h
    rw [htext] at h
    obtain ⟨line, -, hline⟩ := Action.writeFilled_eq_ok h
    simp at hline

end StepNode

/-- Where no library is included, the top level of a test case reads a step as every other level does. -/
theorem StepNode.ofValue_true (v : Value) :
    (∃ library given, ofValue true v = .inclusion library given) ∨ ofValue true v = .nameless ∨
      ofValue true v = ofValue false v := by
  unfold ofValue
  split
  · exact .inr (.inr rfl)
  next entries _ =>
    by_cases hincludes : (get entries "include").truthy = true
    · simp only [ofEntries, hincludes, Bool.and_self, if_true, ofInclusion]
      split
      · exact .inl ⟨_, _, rfl⟩
      · exact .inr (.inl rfl)
    · simp [ofEntries, hincludes]
  · exact .inr (.inr rfl)

namespace StepContext

/-- Carry out what a step asks for. -/
def interpret (c : StepContext Failure) (node : StepNode) : Run Failure (List Text) := do
  match ← node.action c.scope with
  | .write lines => return lines
  | .descend => c.runAll node.guarded
  | .enter library given => c.openLibrary library given

variable {c : StepContext Failure}

/-- Carrying out what a step asks for is running it. -/
theorem runNode_eq_interpret (hc : c.failure = .step) (node : StepNode) :
    c.runNode (fun _ => c.runAll node.guarded) node = c.interpret node := by
  cases node with
  | text template => simp [runNode, instruct, interpret, StepNode.action, Action.writeFilled, hc]
  | conditional condition step steps =>
    simp only [runNode, interpret, StepNode.action, hc, bind_assoc]
    congr 1
    funext holds
    cases holds <;> simp
  | inclusion library given => simp [runNode, interpret, StepNode.action]
  | nameless => simp only [runNode, interpret, StepNode.action, hc]; rfl
  | structured value =>
    simp only [runNode, interpret, StepNode.action]
    cases value.stepText with
    | ok template => simp [instruct, Action.writeFilled, hc]
    | error fault => simp only [hc]; rfl

/-- A step without self-reference is run by carrying out what it asks for. -/
theorem run_eq_interpret (hc : c.failure = .step) {v : Value} (hv : v.isPlain = true) :
    c.run v = c.interpret (.ofValue false v) := by
  rw [← runNode_eq_interpret hc]
  cases v with
  | map entries => exact c.run_map entries
  | scalar s => cases s <;> rfl
  | knot g index => simp [Value.isPlain] at hv
  | _ => rfl

/-- Steps without self-reference are run by carrying out what each asks for. -/
theorem runAll_eq_gather_interpret (hc : c.failure = .step) {steps : List Value}
    (hsteps : ∀ step ∈ steps, step.isPlain = true) :
    c.runAll steps = Run.gather c.interpret (StepNode.ofSteps false steps) := by
  rw [runAll_eq_gather, StepNode.ofSteps, Run.gather_map]
  exact Run.gather_congr fun step hstep => run_eq_interpret hc (hsteps step hstep)

/-- A step of a test case without self-reference is run by carrying out what it asks for. -/
theorem runTop_eq_interpret (hc : c.failure = .step) {v : Value} (hv : v.isPlain = true) :
    c.runTop v = c.interpret (.ofValue true v) := by
  rw [runTop]
  split
  next library given hnode => rw [hnode, interpret, StepNode.action, pure_bind]
  next hnode => rw [hnode, ← runNode_eq_interpret hc]; rfl
  next hinclusion hnameless =>
    rcases StepNode.ofValue_true v with ⟨library, given, h⟩ | h | h
    · exact absurd h (hinclusion library given)
    · exact absurd h hnameless
    · rw [h, run_eq_interpret hc hv]

/-- Steps of a test case without self-reference are run by carrying out what each asks for. -/
theorem gather_runTop_eq_gather_interpret (hc : c.failure = .step) {steps : List Value}
    (hsteps : ∀ step ∈ steps, step.isPlain = true) :
    Run.gather c.runTop steps = Run.gather c.interpret (StepNode.ofSteps true steps) := by
  rw [StepNode.ofSteps, Run.gather_map]
  exact Run.gather_congr fun step hstep => runTop_eq_interpret hc (hsteps step hstep)

end StepContext
end TestPlan
