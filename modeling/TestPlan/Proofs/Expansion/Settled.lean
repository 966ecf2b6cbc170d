import TestPlan.Proofs.Expansion.Faults
import TestPlan.Proofs.Substitution

/-!
# Expanded steps are settled

Where all texts that may fill a placeholder are clean (`Expander.IsClean`), no line of an expansion has a
placeholder left that the environment binds: each line is a filled template, or stands for an unknown library
and has no placeholder at all. Filling such a line once more from the environment leaves it as it is
(`Expander.expand_settled`).
-/

namespace TestPlan

/-- The texts of all values of entries are clean. -/
def Entries.AllClean (entries : Entries Value) : Prop := ∀ e ∈ entries, e.2.parameterText.IsClean

/-- Whether no value opens a placeholder is decided entry by entry. -/
instance (entries : Entries Value) : Decidable entries.AllClean :=
  inferInstanceAs (Decidable (∀ e ∈ entries, e.2.parameterText.IsClean))

/-- A name finds no value that opens a placeholder in a scope that has none. -/
theorem Scope.isClean_of_allClean {scope : Scope} (hparameters : Entries.AllClean scope.parameters)
    (henvironment : Entries.AllClean scope.environment) : scope.IsClean := by
  intro name text h
  obtain ⟨v, hv, rfl⟩ := Option.map_eq_some_iff.mp h
  rcases Option.or_eq_some_iff.mp hv with hparameter | ⟨-, hvariable⟩
  · exact hparameters _ (Entries.mem_of_find?_eq_some hparameter)
  · exact henvironment _ (Entries.mem_of_find?_eq_some hvariable)

/-- If a step is an inclusion, it gives clean values, and the name of its library has no opening brace. -/
def StepNode.CallsCleanly : StepNode → Prop
  | inclusion name given => .char '{' ∉ name ∧ Entries.AllClean given
  | _ => True

/-- Every text that may fill a placeholder of an expansion is clean, and so are the calls. -/
structure Expander.IsClean (x : Expander) (p : Entries Value) (steps : List Value) : Prop where
  environment : Entries.AllClean x.environment
  inherited : Entries.AllClean p
  defaults : ∀ library ∈ x.libraries, ∀ parameter ∈ library.parameters,
    ∀ text, parameter.default = some text → text.IsClean
  steps : ∀ node, StepNode.Among node (StepNode.ofSteps true steps) → node.CallsCleanly
  libraries : ∀ library ∈ x.libraries, ∀ node, StepNode.Among node library.nodes → node.CallsCleanly

/-- No placeholder of a line has a name that is bound in an environment. -/
def Text.IsSettled (environment : Entries Value) (line : Text) : Prop :=
  ∀ body, .placeholder body ∈ Template.pieces line → environment.find? (Template.nameOf body) = none

/-- A line without opening braces is settled. -/
theorem Text.isSettled_of_not_mem (environment : Entries Value) {line : Text} (h : .char '{' ∉ line) :
    line.IsSettled environment := by
  intro body hbody
  rw [(Template.opensNowhere_of_not_mem h []).pieces_eq] at hbody
  simp at hbody

/-- The text in place of an unknown library is settled if the name of the library has no opening brace. -/
theorem missingLibrary_isSettled (environment : Entries Value) {name : Text} (h : .char '{' ∉ name) :
    (missingLibrary name).IsSettled environment := by
  refine Text.isSettled_of_not_mem environment fun hmem => ?_
  rcases List.mem_append.mp hmem with hmem | hmem
  · rcases List.mem_append.mp hmem with hmem | hmem
    · revert hmem
      decide
    · exact h hmem
  · revert hmem
    decide

/-- A filled template is settled. -/
theorem Template.filled_isSettled {scope : Scope} (hclean : scope.IsClean) (template : Text) :
    (filled scope template).IsSettled scope.environment := fun _ hbody =>
  (Option.or_eq_none_iff.mp (placeholder_mem_pieces_filled (fillsCleanly_of_isClean hclean template) hbody).2).2

/-- The lines that a step asks to write are filled templates. -/
theorem StepNode.filled_of_write {scope : Scope} {node : StepNode} {lines : List Text}
    (h : (node.action scope).outcome = .ok (.write lines)) :
    ∀ line ∈ lines, ∃ template, line = Template.filled scope template := by
  have hfilled {template : Text} (h : (Action.writeFilled scope template).outcome = .ok (.write lines)) :
      ∀ line ∈ lines, ∃ template, line = Template.filled scope template := by
    obtain ⟨own, hown, hlines⟩ := Action.writeFilled_eq_ok h
    obtain rfl := Action.write.inj hlines
    intro line hline
    obtain rfl := List.mem_singleton.mp hline
    exact ⟨template, Template.complete_eq_filled (congrArg Run.outcome hown)⟩
  cases node with
  | text template => exact hfilled h
  | conditional condition step steps =>
    obtain ⟨holds, -, hwrite⟩ := action_conditional_eq_ok h
    cases holds with
    | true => simp at hwrite
    | false =>
      obtain rfl : lines = [] := by simpa using hwrite
      exact fun line hline => absurd hline List.not_mem_nil
  | inclusion library given => simp [action] at h
  | nameless => simp [action, Run.fail] at h
  | structured v =>
    obtain ⟨template, -, hwrite⟩ := action_structured_eq_ok h
    exact hfilled (hwrite ▸ h)

/-- Every line of an expansion by the rules is settled. -/
theorem Expands.isSettled {x : Expander} (henvironment : Entries.AllClean x.environment)
    (hdefaults : ∀ library ∈ x.libraries, ∀ parameter ∈ library.parameters,
      ∀ text, parameter.default = some text → text.IsClean)
    (hlibraries : ∀ library ∈ x.libraries, ∀ node, StepNode.Among node library.nodes → node.CallsCleanly)
    {chain : IncludeChain} {p : Entries Value} {nodes : List StepNode} {run : Run Failure (List Text)}
    (h : Expands x chain p nodes run) (hnodes : ∀ node, StepNode.Among node nodes → node.CallsCleanly)
    (hp : Entries.AllClean p) {lines : List Text} (hlines : run.outcome = .ok lines) :
    ∀ line ∈ lines, line.IsSettled x.environment := by
  induction h generalizing lines with
  | nil =>
    obtain rfl := Except.ok.inj hlines
    exact fun line hline => absurd hline List.not_mem_nil
  | fault | refused | failed => simp at hlines
  | write h _ ih =>
    obtain ⟨others, hothers, rfl⟩ := Run.after_outcome_eq_ok.mp hlines
    have hrest := ih (fun node hnode => hnodes node hnode.cons) hp hothers
    refine List.forall_mem_append.mpr ⟨fun line hline => ?_, hrest⟩
    obtain ⟨template, rfl⟩ := StepNode.filled_of_write h line hline
    exact Template.filled_isSettled (Scope.isClean_of_allClean hp henvironment) template
  | descend _ _ ih =>
    obtain ⟨others, hothers, rfl⟩ := Run.after_outcome_eq_ok.mp hlines
    exact ih (fun node hnode => hnodes node hnode.of_below) hp hothers
  | unknown h _ _ ih =>
    obtain ⟨others, hothers, rfl⟩ := Run.after_outcome_eq_ok.mp hlines
    obtain rfl := StepNode.eq_inclusion_of_enter h
    have hcall := hnodes _ (.here List.mem_cons_self)
    have hrest := ih (fun node hnode => hnodes node hnode.cons) hp hothers
    refine List.forall_mem_append.mpr ⟨fun line hline => ?_, hrest⟩
    obtain rfl := List.mem_singleton.mp hline
    exact missingLibrary_isSettled x.environment hcall.1
  | entered h hlibrary _ _ hinner _ ihinner ih =>
    obtain ⟨others, hothers, rfl⟩ := Run.after_outcome_eq_ok.mp hlines
    obtain rfl := StepNode.eq_inclusion_of_enter h
    have hcall := hnodes _ (.here List.mem_cons_self)
    have hmem := LibraryTable.mem_of_get? hlibrary
    have hrest := ih (fun node hnode => hnodes node hnode.cons) hp hothers
    refine List.forall_mem_append.mpr ⟨ihinner (hlibraries _ hmem) ?_ hinner, hrest⟩
    exact Expander.forall_enterWith (Q := fun v => v.parameterText.IsClean) (hdefaults _ hmem) hp hcall.2

namespace Expander

/-- Where all texts that may fill a placeholder are clean, no placeholder in a line of an expansion has a name
that the environment binds, and filling the line from the environment alone leaves it as it is. -/
theorem expand_settled {x : Expander} {d : Int} (hd : x.maxDepth = some d) (htable : x.libraries.IsPlain)
    {p : Entries Value} {steps : List Value} (hsteps : ∀ step ∈ steps, step.isPlain = true)
    (hclean : x.IsClean p steps) {lines : List Text} (h : (x.expand p steps).outcome = .ok lines) :
    ∀ line ∈ lines, line.IsSettled x.environment ∧
      (Template.complete id ⟨[], x.environment⟩ line).outcome = .ok line := by
  intro line hline
  have hsettled : line.IsSettled x.environment := (expands_expand hd htable hsteps).isSettled
    hclean.environment hclean.defaults hclean.libraries hclean.steps hclean.inherited h line hline
  exact ⟨hsettled, Template.complete_of_unbound id hsettled⟩

/-- Braces around a placeholder stay around its value without making it one, in a test case and in a library,
and a placeholder that is not bound stays. -/
theorem expand_settled_braces :
    let hole (name : Text) : Text := (Template.Piece.placeholder name).source
    let around (inner : Text) : Text := "\x7bx" ++ inner ++ "\x7d\x7d"
    let greet : StepLibrary := ⟨"greet", [], [⟨"word", [], some "b"⟩], [.text (around (hole "word") ++ hole "c")]⟩
    let x : Expander := ⟨[greet], [(.text "a", .text "b"), (.text "xb", .text "y")], some 1⟩
    let steps : List Value := [.text (around (hole "a")), .map [(.text "include", .text "greet")]]
    let lines : List Text := [around "b", around "b" ++ hole "c"]
    x.IsClean [] steps ∧ (x.expand [] steps).outcome = .ok lines ∧
      ∀ line ∈ lines, line.IsSettled x.environment ∧
        (Template.complete id ⟨[], x.environment⟩ line).outcome = .ok line := by
  intro hole around greet x steps lines
  have htable : x.libraries.IsPlain := by simp [x, greet, LibraryTable.IsPlain, Value.isPlain]
  have hsteps : ∀ step ∈ steps, step.isPlain = true := by simp [steps, Value.isPlain, Value.entriesPlain]
  have hclean : x.IsClean [] steps := by
    refine ⟨by decide, by decide, ?_, fun node hnode => ?_, fun library hlibrary node hnode => ?_⟩
    · intro library hlibrary parameter hparameter text htext
      obtain rfl := List.mem_singleton.mp hlibrary
      obtain rfl := List.mem_singleton.mp hparameter
      obtain rfl := Option.some.inj htext
      decide
    · have hmem := hnode.mem_of_unguarded (by simp [steps, StepNode.ofSteps]; decide)
      rcases List.mem_cons.mp hmem with rfl | hmem
      · trivial
      · obtain rfl := List.mem_singleton.mp hmem
        exact ⟨by decide, by decide⟩
    · obtain rfl := List.mem_singleton.mp hlibrary
      have hmem := hnode.mem_of_unguarded (by simp [StepLibrary.nodes, greet, StepNode.ofSteps]; decide)
      obtain rfl := List.mem_singleton.mp hmem
      trivial
  have hlines : (x.expand [] steps).outcome = .ok lines := by decide +kernel
  exact ⟨hclean, hlines, expand_settled rfl htable hsteps hclean hlines⟩

end Expander
end TestPlan
