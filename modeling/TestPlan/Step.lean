import TestPlan.Condition
import TestPlan.Value.Json

/-!
# Steps

A step of a definition is a text, or a mapping that guards other steps with a condition, or a mapping
that includes a step library; any other value is a structured step and is shown as JSON. `StepNode` is
what a value says at its own level. An inclusion whose library has no name that can be written is
`nameless`.

`StepContext.run` resolves a step, and looks at the steps that it guards only when their condition holds;
`run_map` says that these are then resolved one after the other. What an inclusion does belongs to the
context, since it needs the step libraries. In a document that contains itself a conditional step can guard
itself; such a step is endless.
-/

namespace TestPlan

/-- What a value says as a step, with the parts it guards as they stand. -/
inductive StepNode
  | text (template : Text)
  | conditional (condition step : Value) (steps : Option (List Value))
  | inclusion (library : Text) (parameters : Entries Value)
  | nameless
  | structured (value : Value)

namespace StepNode

/-- The value of a field, null when there is none. -/
def get (entries : Entries Value) (name : Text) : Value := (entries.find? name).getD .null

/-- An inclusion: the library's name, and parameters if they form a mapping. -/
def ofInclusion (entries : Entries Value) : StepNode :=
  match (get entries "include").write Value.display with
  | .ok library => inclusion library ((get entries "parameters").entries?.getD [])
  | .error _ => nameless

/-- What a mapping says as a step. With `includeFirst` an included library outweighs a condition, and
otherwise the condition outweighs the library. -/
def ofEntries (includeFirst : Bool) (raw : Value) (entries : Entries Value) : StepNode :=
  let includes := (get entries "include").truthy
  if includeFirst && includes then ofInclusion entries
  else if (get entries "condition").truthy then
    conditional (get entries "condition") (get entries "step") (get entries "steps").items?
  else if includes then ofInclusion entries
  else structured raw

/-- What a value says as a step. -/
def ofValue (includeFirst : Bool) (raw : Value) : StepNode :=
  match raw.view with
  | .scalar (.text template) => text template
  | .map entries => ofEntries includeFirst raw entries
  | _ => structured raw

/-- The steps that a node guards: the single one if it is there, otherwise those of the list. -/
def guarded : StepNode → List Value
  | conditional _ step steps => if step.truthy then [step] else steps.getD []
  | _ => []

end StepNode

/-- Why a step cannot be resolved although its inclusions can. -/
inductive StepFault
  /-- a structured step has no text -/
  | text (fault : JsonFault)
  /-- a value that the step uses cannot be written -/
  | write (fault : WriteFault)
  /-- a conditional step guards itself -/
  | endless
  deriving DecidableEq

namespace StepFault

/-- What a fault says. -/
def message : StepFault → Text
  | text fault => fault.message
  | write fault => fault.message
  | endless => "maximum recursion depth exceeded"

end StepFault

/-- What resolving a step depends on: the names in scope, what an inclusion comes to, and the failure that a
fault is. -/
structure StepContext (ε : Type) where
  scope : Scope
  openLibrary : Text → Entries Value → Run ε (List Text)
  failure : StepFault → ε

namespace StepContext
variable {ε : Type}

/-- The instruction that a template gives. -/
def instruct (c : StepContext ε) (template : Text) : Run ε (List Text) := do
  return [← Template.complete (c.failure ∘ .write) c.scope template]

/-- The instructions of a node; `guarded` gives those of the steps that it guards. -/
def runNode (c : StepContext ε) (guarded : Unit → Run ε (List Text)) : StepNode → Run ε (List Text)
  | .text template => c.instruct template
  | .conditional condition _ _ => do
    if ← Condition.evaluate (c.failure ∘ .write) c.scope condition then guarded () else return []
  | .inclusion library parameters => c.openLibrary library parameters
  | .nameless => Run.fail (c.failure (.write .tooManyDigits))
  | .structured value =>
    match value.stepText with
    | .ok template => c.instruct template
    | .error e => Run.fail (c.failure (.text e))

/-- The instructions of a step that guards no other. -/
def runAlone (c : StepContext ε) (raw : Value) : Run ε (List Text) :=
  c.runNode (fun _ => pure []) (.ofValue false raw)

/-- The instructions of a step out of a graph, where `enter` gives those of a container. -/
def runPart (c : StepContext ε) (enter : Nat → Run ε (List Text)) : Value → Run ε (List Text)
  | .knot _ index => enter index
  | raw => c.runAlone raw

/-- The instructions of a step that is a container of a graph. The containers in `free` have not been
entered yet; one that has is a conditional step which guards itself. -/
def runCell (c : StepContext ε) (g : Graph) (free : List Nat) (index : Nat) : Run ε (List Text) :=
  if h : index ∈ free then
    have := length_erase_lt h
    let node := StepNode.ofValue false (.knot g index)
    let enter (next : Nat) := c.runCell g (free.erase index) next
    c.runNode (fun _ => Run.gather (c.runPart enter) node.guarded) node
  else Run.fail (c.failure .endless)
termination_by free.length

/-- The instructions of a step that is a container of a graph, none of which has been entered yet. -/
def runKnot (c : StepContext ε) (g : Graph) (index : Nat) : Run ε (List Text) :=
  c.runCell g (List.range g.cells.size) index

mutual

/-- The instructions of a step. -/
def run (c : StepContext ε) : Value → Run ε (List Text)
  | .map entries =>
    let node := StepNode.ofEntries false (.map entries) entries
    let single := (StepNode.get entries "step").truthy
    c.runNode (fun _ => if single then c.runSingle entries else c.runMany entries) node
  | .knot g index => c.runKnot g index
  | raw => c.runAlone raw
termination_by structural v => v

/-- The instructions of the single step among the entries of a mapping. -/
def runSingle (c : StepContext ε) : List (Scalar × Value) → Run ε (List Text)
  | [] => c.runAlone .null
  | (key, v) :: rest => if key = .text "step" then c.run v else c.runSingle rest
termination_by structural es => es

/-- The instructions of the list of steps among the entries of a mapping. -/
def runMany (c : StepContext ε) : List (Scalar × Value) → Run ε (List Text)
  | [] => pure []
  | (key, v) :: rest => if key = .text "steps" then c.runItems v else c.runMany rest
termination_by structural es => es

/-- The instructions of the items of a list value; nothing else has any. -/
def runItems (c : StepContext ε) : Value → Run ε (List Text)
  | .list items => c.runAll items
  | .knot g index => Run.gather (c.runPart (c.runKnot g)) (((Value.knot g index).items?).getD [])
  | _ => pure []
termination_by structural v => v

/-- The instructions of steps, one after the other. -/
def runAll (c : StepContext ε) : List Value → Run ε (List Text)
  | [] => pure []
  | raw :: rest => do
    let first ← c.run raw
    return first ++ (← c.runAll rest)
termination_by structural steps => steps

end

/-- The instructions of a step of a test case, where an included library outweighs a condition. -/
def runTop (c : StepContext ε) (raw : Value) : Run ε (List Text) :=
  match StepNode.ofValue true raw with
  | .inclusion library parameters => c.openLibrary library parameters
  | .nameless => Run.fail (c.failure (.write .tooManyDigits))
  | _ => c.run raw

/-- Running steps one after the other puts their instructions together. -/
theorem runAll_eq_gather (c : StepContext ε) (steps : List Value) :
    c.runAll steps = Run.gather c.run steps := by
  induction steps with
  | nil => rfl
  | cons raw rest ih =>
    rw [runAll, Run.gather, ih]
    rfl

/-- The single step among the entries is what their field says. -/
theorem runSingle_eq (c : StepContext ε) (entries : Entries Value) :
    c.runSingle entries = c.run (StepNode.get entries "step") := by
  induction entries with
  | nil => rfl
  | cons entry rest ih =>
    obtain ⟨key, v⟩ := entry
    rw [runSingle, ih]
    by_cases h : key = .text "step" <;> simp [StepNode.get, Entries.find?, h]

/-- The links of a container are run like the values that they lead to. -/
theorem gather_runPart (c : StepContext ε) (g : Graph) (links : List Link) :
    Run.gather (c.runPart (c.runKnot g)) (links.map (Value.ofLink g)) =
      Run.gather c.run (links.map (Value.ofLink g)) := by
  induction links with
  | nil => rfl
  | cons link rest ih =>
    have hlink : c.runPart (c.runKnot g) (Value.ofLink g link) = c.run (Value.ofLink g link) := by
      cases link <;> rfl
    rw [List.map_cons, Run.gather, Run.gather, hlink, ih]

/-- The items of a value are run one after the other. -/
theorem runItems_eq (c : StepContext ε) (v : Value) : c.runItems v = c.runAll (v.items?.getD []) := by
  cases v with
  | knot g index =>
    rw [runItems, runAll_eq_gather, Value.items?, Value.view]
    cases hcell : g.cell index <;> simp [gather_runPart, Run.gather]
  | _ => rfl

/-- The list of steps among the entries is what their field says. -/
theorem runMany_eq (c : StepContext ε) (entries : Entries Value) :
    c.runMany entries = c.runAll ((StepNode.get entries "steps").items?.getD []) := by
  induction entries with
  | nil => rfl
  | cons entry rest ih =>
    obtain ⟨key, v⟩ := entry
    rw [runMany, ih, runItems_eq]
    by_cases h : key = .text "steps" <;> simp [StepNode.get, Entries.find?, h]

/-- Running one step is running that step. -/
theorem runAll_singleton (c : StepContext ε) (raw : Value) : c.runAll [raw] = c.run raw := by
  rw [runAll, runAll]
  simp

/-- A mapping is run as what it says, with the steps that it guards one after the other. -/
theorem run_map (c : StepContext ε) (entries : Entries Value) :
    c.run (.map entries) =
      c.runNode (fun _ => c.runAll (StepNode.ofEntries false (.map entries) entries).guarded)
        (StepNode.ofEntries false (.map entries) entries) := by
  rw [run]
  cases h : StepNode.ofEntries false (.map entries) entries with
  | conditional condition step steps =>
    obtain ⟨rfl, rfl, rfl⟩ : StepNode.get entries "condition" = condition ∧
        StepNode.get entries "step" = step ∧ (StepNode.get entries "steps").items? = steps := by
      simp only [StepNode.ofEntries, Bool.false_and, Bool.false_eq_true, if_false] at h
      split at h
      · simpa using h
      · split at h
        · unfold StepNode.ofInclusion at h
          split at h <;> simp at h
        · simp at h
    congr 1
    funext _
    rw [runSingle_eq, runMany_eq, StepNode.guarded]
    split
    · rw [runAll_singleton]
    · rfl
  | _ => rfl

end StepContext
end TestPlan
