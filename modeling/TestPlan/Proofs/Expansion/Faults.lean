import TestPlan.Proofs.Expansion.Equations
import TestPlan.Proofs.StepText
import TestPlan.Proofs.Substitution

/-!
# What can go wrong in an expansion

A step cannot be looked at when it asks for the text of a value with an integer that is too long. Apart
from keys inside pairs that have no name, nothing else can be wrong with a step (`StepNode.action_fault`),
and where every integer can be written nothing is (`StepNode.action_ok`). So an expansion fails with an
inclusion that the chain refuses, or because of an integer that is too long.
-/

namespace TestPlan

/-- A failure because of an integer that is too long to be written. -/
def Failure.IsTooLong (e : Failure) : Prop :=
  e = .step (.write .tooManyDigits) ∨ e = .step (.text (.write .tooManyDigits))

/-- A failure over too many digits is one of a step. -/
theorem Failure.IsTooLong.of_step {e : Failure} (h : e.IsTooLong) : ∃ fault, e = .step fault := by
  rcases h with rfl | rfl <;> exact ⟨_, rfl⟩

/-- All values of entries can be written. -/
def Entries.AllWritable (entries : Entries Value) : Prop := ∀ e ∈ entries, e.2.isWritable = true

/-- Whatever a name is bound to can be written if everything in the scope can. -/
theorem Scope.isWritable_of_allWritable {scope : Scope} (hparameters : Entries.AllWritable scope.parameters)
    (henvironment : Entries.AllWritable scope.environment) (name : Text) : scope.isWritable name = true := by
  unfold isWritable value?
  cases hp : scope.parameters.find? name with
  | some v => exact hparameters _ (Entries.mem_of_find?_eq_some hp)
  | none =>
    cases he : scope.environment.find? name with
    | some v => exact henvironment _ (Entries.mem_of_find?_eq_some he)
    | none => rfl

namespace Template

variable {ε : Type} {fault : WriteFault → ε} {scope : Scope}

/-- A template is filled unless a value that it asks for is too long. -/
theorem complete_fault {template : Text} {e : ε} (h : (complete fault scope template).outcome = .error e) :
    e = fault .tooManyDigits := by
  simp only [complete] at h
  split at h
  · simp [fill] at h
  · simpa using h.symm

/-- A template is filled where every value can be written. -/
theorem complete_ok (fault : WriteFault → ε) (h : ∀ name, scope.isWritable name = true) (template : Text) :
    ∃ text, (complete fault scope template).outcome = .ok text :=
  ⟨filled scope template, complete_eq_ok_iff.mpr ⟨forall_isWritable_iff.mpr fun body _ => h (nameOf body), rfl⟩⟩

end Template

namespace Condition

variable {ε : Type} {scope : Scope}

/-- A condition whose text is at hand always has a truth value. -/
theorem evaluateText_ok (scope : Scope) (condition : Text) :
    ∃ holds, (evaluateText scope condition : Run ε Bool).outcome = .ok holds := by
  simp only [evaluateText]
  split <;> exact ⟨_, rfl⟩

/-- Whether a condition holds can be told unless the condition itself is too long. -/
theorem evaluate_fault {fault : WriteFault → ε} {condition : Value} {e : ε}
    (h : (evaluate fault scope condition).outcome = .error e) :
    e = fault .tooManyDigits ∧ condition.isWritable = false := by
  unfold evaluate at h
  split at h
  · simp at h
  · simp at h
  next template =>
    split at h
    · simp at h
    · obtain ⟨holds, hholds⟩ := evaluateText_ok (ε := ε) scope template
      simp [hholds] at h
  · cases hwritable : condition.isWritable with
    | true =>
      simp only [Value.write, hwritable, if_true] at h
      exact absurd h (by simp [reject, Run.warn, Run.report, Run.bind_of_ok])
    | false =>
      simp only [Value.write, hwritable] at h
      exact ⟨by simpa [Run.fail] using h.symm, rfl⟩

end Condition

variable {scope : Scope}

/-- Filling a step fails only over too many digits. -/
theorem Action.writeFilled_fault {template : Text} {e : Failure}
    (h : (writeFilled scope template).outcome = .error e) : e.IsTooLong := by
  rcases Run.bind_outcome_eq_error h with hfill | ⟨text, -, hwrite⟩
  · exact .inl (Template.complete_fault hfill)
  · simp at hwrite

/-- A step can be filled if every name has a value that can be written. -/
theorem Action.writeFilled_ok (h : ∀ name, scope.isWritable name = true) (template : Text) :
    ∃ action, (writeFilled scope template).outcome = .ok action := by
  obtain ⟨text, htext⟩ := Template.complete_ok (Failure.step ∘ .write) h template
  exact ⟨.write [text], by rw [writeFilled, Run.bind_of_ok htext]; rfl⟩

namespace StepNode

/-- Looking at a step fails because of that step, and never as an inclusion. -/
theorem action_fails_in_step {node : StepNode} {e : Failure} (h : (node.action scope).outcome = .error e) :
    ∃ fault, e = .step fault := by
  cases node with
  | text template => exact (Action.writeFilled_fault h).of_step
  | conditional condition step steps =>
    rcases Run.bind_outcome_eq_error h with hcondition | ⟨holds, -, hrest⟩
    · exact ⟨_, (Condition.evaluate_fault hcondition).1⟩
    · cases holds <;> simp at hrest
  | inclusion library given => simp [action] at h
  | nameless => exact ⟨_, (Except.error.inj h).symm⟩
  | structured value =>
    rw [action] at h
    split at h
    · exact (Action.writeFilled_fault h).of_step
    · exact ⟨_, (Except.error.inj h).symm⟩

/-- Whether the text of a step can name all keys that it has to; only a structured step has any. -/
def namesKeys : StepNode → Bool
  | structured v => v.namesKeys false
  | _ => true

/-- A step that names the keys inside its pairs fails only because of an integer that is too long. -/
theorem action_fault {node : StepNode} (hnode : node.IsPlain) (hnames : node.namesKeys = true) {e : Failure}
    (h : (node.action scope).outcome = .error e) : e.IsTooLong := by
  obtain ⟨top, v, hv, -, rfl⟩ := hnode
  rcases ofValue_cases top hv with ⟨template, hsaid⟩ | hsaid | ⟨entries, rfl, hsaid | hsaid⟩
  · rw [hsaid] at h
    exact Action.writeFilled_fault h
  · rw [hsaid] at hnames
    rw [hsaid, action] at h
    rcases Value.stepText_written hv hnames with ⟨template, htext⟩ | ⟨-, hfault⟩
    · rw [htext] at h
      exact Action.writeFilled_fault h
    · rw [hfault] at h
      exact .inr (by simpa [Run.fail] using h.symm)
  · rw [hsaid, ofInclusion] at h
    split at h
    · simp [action] at h
    · exact .inl (by simpa [action, Run.fail] using h.symm)
  · rw [hsaid] at h
    rcases Run.bind_outcome_eq_error h with hcondition | ⟨holds, -, hrest⟩
    · exact .inl (Condition.evaluate_fault hcondition).1
    · cases holds <;> simp at hrest

/-- A step that names the keys inside its pairs can be looked at where every integer can be written. -/
theorem action_ok {node : StepNode} (hnode : node.SaidBy fun v => v.treeWritable = true)
    (hnames : node.namesKeys = true) (hscope : ∀ name, scope.isWritable name = true) :
    ∃ action, (node.action scope).outcome = .ok action := by
  obtain ⟨top, v, hv, hwritable, rfl⟩ := hnode
  have hfield (entries : Entries Value) (hentries : v = .map entries) (name : Text) :
      (get entries name).isWritable = true := by
    subst hentries
    rcases get_eq_null_or_mem entries name with hnull | hmem
    · rw [hnull]
      rfl
    · rw [Value.isWritable_of_isPlain (Value.inherited_isPlain.entry hv hmem)]
      exact Value.inherited_treeWritable.entry hwritable hmem
  rcases ofValue_cases top hv with ⟨template, hsaid⟩ | hsaid | ⟨entries, hentries, hsaid | hsaid⟩
  · rw [hsaid]
    exact Action.writeFilled_ok hscope template
  · rw [hsaid] at hnames
    rw [hsaid, action]
    rcases Value.stepText_written hv hnames with ⟨template, htext⟩ | ⟨hlong, -⟩
    · rw [htext]
      exact Action.writeFilled_ok hscope template
    · rw [hwritable] at hlong
      exact absurd hlong (by decide)
  · rw [hsaid, ofInclusion, Value.write, if_pos (hfield entries hentries _)]
    exact ⟨_, rfl⟩
  · rw [hsaid]
    cases h : ((StepNode.conditional (get entries "condition") (get entries "step")
        (get entries "steps").items?).action scope).outcome with
    | ok action => exact ⟨action, rfl⟩
    | error e =>
      rcases Run.bind_outcome_eq_error h with hcondition | ⟨holds, -, hrest⟩
      · have hlong := (Condition.evaluate_fault hcondition).2
        rw [hfield entries hentries] at hlong
        exact absurd hlong (by decide)
      · cases holds <;> simp at hrest

end StepNode

/-- An expansion fails with an inclusion that the chain refuses or as one of its steps does: `F` is how
steps with the property `R` fail under parameters with the property `G`. -/
theorem Expands.fails_with {x : Expander} {F : Failure → Prop} {R : StepNode → Prop} {G : Entries Value → Prop}
    (hlibraries : ∀ library ∈ x.libraries, ∀ node, StepNode.Among node library.nodes → R node)
    (hG : ∀ library p name given, R (.inclusion name given) → G p → G (Expander.enterWith library p given))
    (hF : ∀ node p e, R node → G p → (node.action (x.scope p)).outcome = .error e → F e)
    {chain : IncludeChain} {p : Entries Value} {nodes : List StepNode} {run : Run Failure (List Text)}
    (h : Expands x chain p nodes run) (hnodes : ∀ node, StepNode.Among node nodes → R node) (hp : G p)
    {e : Failure} (he : run.outcome = .error e) : F e ∨ ∃ refusal, e = .inclusion refusal := by
  induction h with
  | nil => simp at he
  | fault h =>
    obtain rfl := Except.error.inj he
    exact .inl (hF _ _ _ (hnodes _ (.here List.mem_cons_self)) hp h)
  | write _ _ ih | unknown _ _ _ ih | entered _ _ _ _ _ _ _ ih =>
    exact ih (fun node hnode => hnodes node hnode.cons) hp (Run.after_outcome_eq_error.mp he)
  | descend _ _ ih =>
    exact ih (fun node hnode => hnodes node hnode.of_below) hp (Run.after_outcome_eq_error.mp he)
  | refused =>
    obtain rfl := Except.error.inj he
    exact .inr ⟨_, rfl⟩
  | failed h hlibrary _ _ hinner ih =>
    obtain rfl := Except.error.inj he
    obtain rfl := StepNode.eq_inclusion_of_enter h
    have hcall := hnodes _ (.here List.mem_cons_self)
    exact ih (hlibraries _ (LibraryTable.mem_of_get? hlibrary)) (hG _ _ _ _ hcall hp) hinner

/-- What is said about a refused inclusion can be written if the limit of the chain can. -/
theorem Expands.isWritable_of_refusal {x : Expander} {chain : IncludeChain} {p : Entries Value}
    {nodes : List StepNode} {run : Run Failure (List Text)} (h : Expands x chain p nodes run)
    {refusal : IncludeError} (hrefusal : run.outcome = .error (.inclusion refusal))
    (hlimit : Number.isWritable chain.limit = true) : refusal.isWritable = true := by
  induction h with
  | nil => simp at hrefusal
  | fault h =>
    obtain ⟨fault, rfl⟩ := StepNode.action_fails_in_step h
    simp at hrefusal
  | write _ _ ih | unknown _ _ _ ih | entered _ _ _ _ _ _ _ ih | descend _ _ ih =>
    exact ih (Run.after_outcome_eq_error.mp hrefusal) hlimit
  | refused _ _ hpush =>
    obtain rfl := Failure.inclusion.inj (Except.error.inj hrefusal)
    exact IncludeChain.isWritable_of_push hpush hlimit
  | failed _ _ hpush _ he ih =>
    obtain ⟨-, rfl⟩ := IncludeChain.push_eq_ok hpush
    exact ih (he.trans hrefusal) hlimit

/-- All keys that the text of a step may have to name can be named. -/
structure Expander.NamesKeys (x : Expander) (steps : List Value) : Prop where
  steps : ∀ node, StepNode.Among node (StepNode.ofSteps true steps) → node.namesKeys = true
  libraries : ∀ library ∈ x.libraries, ∀ node, StepNode.Among node library.nodes → node.namesKeys = true

/-- Every integer that an expansion may have to write is short enough to be written. -/
structure Expander.Writable (x : Expander) (p : Entries Value) (steps : List Value) : Prop where
  steps : ∀ step ∈ steps, step.treeWritable = true
  libraries : ∀ library ∈ x.libraries, ∀ step ∈ library.steps, step.treeWritable = true
  parameters : Entries.AllWritable p
  environment : Entries.AllWritable x.environment

/-- What holds of the declared defaults of a library holds of the values that they are. -/
theorem StepLibrary.forall_defaults {Q : Value → Prop} {library : StepLibrary}
    (h : ∀ parameter ∈ library.parameters, ∀ text, parameter.default = some text → Q (.text text)) :
    ∀ e ∈ library.defaults, Q e.2 := by
  refine Entries.forall_value_overlay (fun e he => absurd he List.not_mem_nil) fun e he => ?_
  obtain ⟨parameter, hparameter, hentry⟩ := List.mem_filterMap.mp he
  obtain ⟨text, hdefault, rfl⟩ := Option.map_eq_some_iff.mp hentry
  exact h parameter hparameter text hdefault

/-- What holds of the parameters before a call, of those that it gives, and of the declared defaults of the
library that it enters, holds of the parameters inside. -/
theorem Expander.forall_enterWith {Q : Value → Prop} {library : StepLibrary} {p given : Entries Value}
    (hdefaults : ∀ parameter ∈ library.parameters, ∀ text, parameter.default = some text → Q (.text text))
    (hp : ∀ e ∈ p, Q e.2) (hgiven : ∀ e ∈ given, Q e.2) : ∀ e ∈ enterWith library p given, Q e.2 :=
  Entries.forall_value_overlay (StepLibrary.forall_defaults hdefaults) (Entries.forall_value_overlay hp hgiven)

/-- Entering a library leaves parameters writable that were so before the call; its declared defaults are
texts, which can always be written. -/
theorem Expander.enterWith_allWritable (library : StepLibrary) {p given : Entries Value}
    (hp : Entries.AllWritable p) (hgiven : Entries.AllWritable given) :
    Entries.AllWritable (enterWith library p given) :=
  forall_enterWith (Q := fun v => v.isWritable = true) (fun _ _ _ _ => rfl) hp hgiven

namespace Expander

variable {x : Expander} {d : Int} {p : Entries Value} {steps : List Value} {e : Failure}

/-- An expansion whose pairs name their keys fails because the chain refuses an inclusion or because an
integer is too long. -/
theorem expand_fails_with (hd : x.maxDepth = some d) (htable : x.libraries.IsPlain)
    (hsteps : ∀ step ∈ steps, step.isPlain = true) (hnames : x.NamesKeys steps)
    (he : (x.expand p steps).outcome = .error e) : (∃ refusal, e = .inclusion refusal) ∨ e.IsTooLong := by
  have hplain {top : Bool} {steps : List Value} (h : ∀ step ∈ steps, step.isPlain = true) {node : StepNode}
      (hnode : StepNode.Among node (StepNode.ofSteps top steps)) : node.IsPlain :=
    .of_among Value.inherited_true hnode (StepNode.saidBy_ofSteps fun step hstep => ⟨h step hstep, trivial⟩)
  have hfails := (expands_expand hd htable hsteps).fails_with (F := Failure.IsTooLong) (G := fun _ => True)
    (R := fun node => node.IsPlain ∧ node.namesKeys = true)
    (fun library hlibrary node hnode =>
      ⟨hplain (htable library hlibrary) hnode, hnames.libraries library hlibrary node hnode⟩)
    (fun _ _ _ _ _ _ => trivial) (fun _ _ _ hnode _ h => StepNode.action_fault hnode.1 hnode.2 h)
    (fun node hnode => ⟨hplain hsteps hnode, hnames.steps node hnode⟩) trivial he
  exact hfails.symm

/-- Where every integer can be written, too, it fails only because the chain refuses an inclusion. -/
theorem Writable.expand_fails_with (hwritable : x.Writable p steps) (hd : x.maxDepth = some d)
    (htable : x.libraries.IsPlain) (hsteps : ∀ step ∈ steps, step.isPlain = true)
    (hnames : x.NamesKeys steps) (he : (x.expand p steps).outcome = .error e) :
    ∃ refusal, e = .inclusion refusal := by
  let P (v : Value) : Prop := v.isPlain = true ∧ v.treeWritable = true
  have hP : Value.Inherited P := Value.inherited_isPlain.and Value.inherited_treeWritable
  have hsaid {top : Bool} {steps : List Value} (hplain : ∀ step ∈ steps, step.isPlain = true)
      (hwrite : ∀ step ∈ steps, step.treeWritable = true) {node : StepNode}
      (hnode : StepNode.Among node (StepNode.ofSteps top steps)) : node.SaidBy P :=
    .of_among hP hnode (StepNode.saidBy_ofSteps fun step hstep =>
      ⟨hplain step hstep, hplain step hstep, hwrite step hstep⟩)
  have hgiven (library : StepLibrary) (p : Entries Value) (name : Text) (given : Entries Value)
      (hcall : (StepNode.inclusion name given).SaidBy P) (hp : Entries.AllWritable p) :
      Entries.AllWritable (enterWith library p given) := by
    refine enterWith_allWritable library hp fun entry hentry => ?_
    obtain ⟨hplain, hwrite⟩ := hcall.of_mem_given hP hentry
    rw [Value.isWritable_of_isPlain hplain, hwrite]
  have hlooked (node : StepNode) (p : Entries Value) (e : Failure)
      (hnode : node.SaidBy P ∧ node.namesKeys = true) (hp : Entries.AllWritable p) :
      (node.action (x.scope p)).outcome ≠ .error e := by
    have hscope : ∀ name, (x.scope p).isWritable name = true :=
      Scope.isWritable_of_allWritable hp hwritable.environment
    obtain ⟨⟨top, v, hv, ⟨-, hwrite⟩, hnode⟩, hkeys⟩ := hnode
    obtain ⟨action, haction⟩ := StepNode.action_ok ⟨top, v, hv, hwrite, hnode⟩ hkeys hscope
    simp [haction]
  have hfails := (expands_expand hd htable hsteps).fails_with (F := fun _ => False) (G := Entries.AllWritable)
    (R := fun node => node.SaidBy P ∧ node.namesKeys = true)
    (fun library hlibrary node hnode =>
      ⟨hsaid (htable library hlibrary) (hwritable.libraries library hlibrary) hnode,
        hnames.libraries library hlibrary node hnode⟩)
    (fun library p name given hcall => hgiven library p name given hcall.1) hlooked
    (fun node hnode => ⟨hsaid hsteps hwritable.steps hnode, hnames.steps node hnode⟩) hwritable.parameters he
  exact hfails.resolve_left id

/-- What is said about an inclusion that an expansion refuses can be written if its depth limit can. -/
theorem isWritable_of_refusal (hd : x.maxDepth = some d) (htable : x.libraries.IsPlain)
    (hsteps : ∀ step ∈ steps, step.isPlain = true) (hlimit : Number.isWritable d = true) {refusal : IncludeError}
    (he : (x.expand p steps).outcome = .error (.inclusion refusal)) : refusal.isWritable = true :=
  (expands_expand hd htable hsteps).isWritable_of_refusal he hlimit

/-- A structured step without a text fails in every expansion. -/
theorem expand_of_textless (x : Expander) (p : Entries Value) {v : Value} (hv : v.isPlain = true)
    (hsaid : StepNode.ofValue true v = .structured v) {fault : JsonFault} (h : v.stepText = .error fault) :
    (x.expand p [v]).outcome = .error (.step (.text fault)) := by
  have haction : (StepNode.ofValue true v).action (x.outermost p).scope = Run.fail (.step (.text fault)) := by
    rw [hsaid, StepNode.action, h]
  rw [expand, Run.gather_singleton, StepContext.runTop_eq_interpret rfl hv, StepContext.interpret, haction]
  rfl

end Expander
end TestPlan
