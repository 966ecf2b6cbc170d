import TestPlan.Proofs.Expansion.Termination

/-!
# The include chain only guards

A higher limit changes nothing as long as no inclusion is too deep (`Expands.of_le`): the chain is asked for
leave at every inclusion, and what it answers besides that it is full does not depend on its limit.

`Unfolds` expands steps without any include chain: a library stands for its steps wherever it is included.
Nothing keeps such an expansion from going on for ever, but one that ends is the only one
(`Unfolds.unique`), and it is what every expansion with a chain gives that succeeds (`Expands.unfolds`).
-/

namespace TestPlan

/-- An expansion in which no inclusion is too deep is the same under a higher limit. -/
theorem Expands.of_le {table : LibraryTable} {environment : Entries Value} {before after : Option Int}
    {chain : IncludeChain} {p : Entries Value} {nodes : List StepNode} {run : Run Failure (List Text)}
    (h : Expands ⟨table, environment, before⟩ chain p nodes run)
    (hroom : ∀ names most, run.outcome ≠ .error (.inclusion (.tooDeep names most))) {limit : Int}
    (hle : chain.limit ≤ limit) : Expands ⟨table, environment, after⟩ (chain.withLimit limit) p nodes run := by
  induction h with
  | nil => exact .nil
  | fault h => exact .fault h
  | write h _ ih =>
    exact .write h (ih (fun names most => Run.after_outcome_ne_error (hroom names most)) hle)
  | descend h _ ih =>
    exact .descend h (ih (fun names most => Run.after_outcome_ne_error (hroom names most)) hle)
  | unknown h hlibrary _ ih =>
    exact .unknown h hlibrary (ih (fun names most => Run.after_outcome_ne_error (hroom names most)) hle)
  | refused h hlibrary hpush =>
    refine .refused h hlibrary (IncludeChain.push_withLimit_of_error hpush ?_ limit)
    rintro names most rfl
    exact hroom names most rfl
  | entered h hlibrary hpush _ hlines _ ihinner ihrest =>
    have hlimit := IncludeChain.push_limit hpush
    exact .entered h hlibrary (IncludeChain.push_withLimit hpush hle)
      (ihinner (by simp [hlines]) (hlimit ▸ hle)) hlines
      (ihrest (fun names most => Run.after_outcome_ne_error (hroom names most)) hle)
  | failed h hlibrary hpush _ he ihinner =>
    have hlimit := IncludeChain.push_limit hpush
    exact .failed h hlibrary (IncludeChain.push_withLimit hpush hle)
      (ihinner (fun names most htooDeep => hroom names most (he.symm.trans htooDeep)) (hlimit ▸ hle)) he

/-- Expanding steps without an include chain, under parameters, reports these messages and gives these
lines. -/
inductive Unfolds (table : LibraryTable) (environment : Entries Value) :
    Entries Value → List StepNode → List Message → List Text → Prop
  /-- nothing is left to expand -/
  | nil {p} : Unfolds table environment p [] [] []
  /-- a text is filled -/
  | text {p template rest log line later more}
      (h : Template.complete (Failure.step ∘ .write) ⟨p, environment⟩ template = ⟨log, .ok line⟩)
      (hrest : Unfolds table environment p rest later more) :
      Unfolds table environment p (.text template :: rest) (log ++ later) (line :: more)
  /-- the text of a structured step is filled -/
  | structured {p v template rest log line later more} (htext : v.stepText = .ok template)
      (h : Template.complete (Failure.step ∘ .write) ⟨p, environment⟩ template = ⟨log, .ok line⟩)
      (hrest : Unfolds table environment p rest later more) :
      Unfolds table environment p (.structured v :: rest) (log ++ later) (line :: more)
  /-- a conditional step stands for the steps that it guards if its condition holds -/
  | holds {p condition step steps rest log later more}
      (h : Condition.evaluate (Failure.step ∘ .write) ⟨p, environment⟩ condition = ⟨log, .ok true⟩)
      (hbelow : Unfolds table environment p ((StepNode.conditional condition step steps).below ++ rest) later
        more) :
      Unfolds table environment p (.conditional condition step steps :: rest) (log ++ later) more
  /-- a conditional step stands for nothing if its condition does not hold -/
  | fails {p condition step steps rest log later more}
      (h : Condition.evaluate (Failure.step ∘ .write) ⟨p, environment⟩ condition = ⟨log, .ok false⟩)
      (hrest : Unfolds table environment p rest later more) :
      Unfolds table environment p (.conditional condition step steps :: rest) (log ++ later) more
  /-- a placeholder stands for an unknown library, which is reported -/
  | unknown {p name given rest later more} (hlibrary : table.get? name = none)
      (hrest : Unfolds table environment p rest later more) :
      Unfolds table environment p (.inclusion name given :: rest) (missingWarning name :: later)
        (missingLibrary name :: more)
  /-- a library stands for its steps, under the parameters of the call -/
  | library {p name given rest library log lines later more} (hlibrary : table.get? name = some library)
      (hinner : Unfolds table environment (library.resolveParameters (p.overlay given)) library.nodes log
        lines)
      (hrest : Unfolds table environment p rest later more) :
      Unfolds table environment p (.inclusion name given :: rest) (log ++ later) (lines ++ more)

/-- Without an include chain an expansion that ends is the only one. -/
theorem Unfolds.unique {table : LibraryTable} {environment p : Entries Value} {nodes : List StepNode}
    {log other : List Message} {lines own : List Text} (h : Unfolds table environment p nodes log lines)
    (hother : Unfolds table environment p nodes other own) : other = log ∧ own = lines := by
  induction h generalizing other own with
  | nil =>
    cases hother
    exact ⟨rfl, rfl⟩
  | text h _ ih =>
    cases hother with
    | text h' hrest =>
      obtain ⟨rfl, hline⟩ := Run.mk.inj (h'.symm.trans h)
      obtain rfl := Except.ok.inj hline
      obtain ⟨rfl, rfl⟩ := ih hrest
      exact ⟨rfl, rfl⟩
  | structured htext h _ ih =>
    cases hother with
    | structured htext' h' hrest =>
      obtain rfl := Except.ok.inj (htext'.symm.trans htext)
      obtain ⟨rfl, hline⟩ := Run.mk.inj (h'.symm.trans h)
      obtain rfl := Except.ok.inj hline
      obtain ⟨rfl, rfl⟩ := ih hrest
      exact ⟨rfl, rfl⟩
  | holds h _ ih =>
    cases hother with
    | holds h' hbelow =>
      obtain ⟨rfl, -⟩ := Run.mk.inj (h'.symm.trans h)
      obtain ⟨rfl, rfl⟩ := ih hbelow
      exact ⟨rfl, rfl⟩
    | fails h' _ => simp [h] at h'
  | fails h _ ih =>
    cases hother with
    | holds h' _ => simp [h] at h'
    | fails h' hrest =>
      obtain ⟨rfl, -⟩ := Run.mk.inj (h'.symm.trans h)
      obtain ⟨rfl, rfl⟩ := ih hrest
      exact ⟨rfl, rfl⟩
  | unknown hlibrary _ ih =>
    cases hother with
    | unknown _ hrest =>
      obtain ⟨rfl, rfl⟩ := ih hrest
      exact ⟨rfl, rfl⟩
    | library hlibrary' _ _ => simp [hlibrary] at hlibrary'
  | library hlibrary _ _ ihinner ihrest =>
    cases hother with
    | unknown hlibrary' _ => simp [hlibrary] at hlibrary'
    | library hlibrary' hinner hrest =>
      obtain rfl := Option.some.inj (hlibrary'.symm.trans hlibrary)
      obtain ⟨rfl, rfl⟩ := ihinner hinner
      obtain ⟨rfl, rfl⟩ := ihrest hrest
      exact ⟨rfl, rfl⟩

/-- A step that asks to write lines stands for them without an include chain as well. -/
theorem Unfolds.write {x : Expander} {p : Entries Value} {node : StepNode} {rest : List StepNode}
    {lines : List Text} (h : (node.action (x.scope p)).outcome = .ok (.write lines)) {later : List Message}
    {more : List Text} (hrest : Unfolds x.libraries x.environment p rest later more) :
    Unfolds x.libraries x.environment p (node :: rest) ((node.action (x.scope p)).log ++ later)
      (lines ++ more) := by
  cases node with
  | text template =>
    obtain ⟨line, hfill, hlines⟩ := Action.writeFilled_eq_ok h
    obtain rfl := Action.write.inj hlines
    exact .text hfill hrest
  | conditional condition step steps =>
    obtain ⟨holds, hcondition, hlines⟩ := StepNode.action_conditional_eq_ok h
    cases holds with
    | true => simp at hlines
    | false =>
      obtain rfl := Action.write.inj hlines
      exact .fails hcondition hrest
  | inclusion name given => simp [StepNode.action] at h
  | nameless => simp [StepNode.action, Run.fail] at h
  | structured v =>
    obtain ⟨template, htext, haction⟩ := StepNode.action_structured_eq_ok h
    rw [haction] at h ⊢
    obtain ⟨line, hfill, hlines⟩ := Action.writeFilled_eq_ok h
    obtain rfl := Action.write.inj hlines
    exact .structured htext hfill hrest

/-- An expansion that succeeds expands the steps as they are expanded without an include chain. -/
theorem Expands.unfolds {x : Expander} {chain : IncludeChain} {p : Entries Value} {nodes : List StepNode}
    {run : Run Failure (List Text)} (h : Expands x chain p nodes run) {lines : List Text}
    (hlines : run.outcome = .ok lines) : Unfolds x.libraries x.environment p nodes run.log lines := by
  induction h generalizing lines with
  | nil =>
    obtain rfl := Except.ok.inj hlines
    exact .nil
  | fault => simp at hlines
  | write h _ ih =>
    obtain ⟨own, hown, rfl⟩ := Run.after_outcome_eq_ok.mp hlines
    exact .write h (ih hown)
  | descend h _ ih =>
    obtain ⟨own, hown, rfl⟩ := Run.after_outcome_eq_ok.mp hlines
    obtain ⟨condition, step, steps, rfl, hcondition⟩ := StepNode.eq_conditional_of_descend h
    exact .holds hcondition (ih hown)
  | unknown h hlibrary _ ih =>
    obtain ⟨own, hown, rfl⟩ := Run.after_outcome_eq_ok.mp hlines
    obtain rfl := StepNode.eq_inclusion_of_enter h
    exact .unknown hlibrary (ih hown)
  | refused => simp at hlines
  | entered h hlibrary _ _ hinner _ ihinner ihrest =>
    obtain ⟨own, hown, rfl⟩ := Run.after_outcome_eq_ok.mp hlines
    obtain rfl := StepNode.eq_inclusion_of_enter h
    exact .library hlibrary (ihinner hinner) (ihrest hown)
  | failed => simp at hlines

namespace Expander

variable {table : LibraryTable} {steps : List Value}

/-- The limit on the depth of inclusions never changes what an expansion gives, it only replaces it by an
error: where no inclusion is too deep, a higher limit gives the same lines or the same failure, and the same
messages. Lines are always those of the expansion without an include chain, and so are their messages. -/
theorem expand_guarded (htable : table.IsPlain) (hsteps : ∀ step ∈ steps, step.isPlain = true)
    (environment p : Entries Value) {d d' : Int} (hle : d ≤ d') :
    let run (limit : Int) := expand ⟨table, environment, some limit⟩ p steps
    ((∀ names most, (run d).outcome ≠ .error (.inclusion (.tooDeep names most))) → run d' = run d) ∧
      ∀ lines, (run d).outcome = .ok lines → ∀ log own,
        Unfolds table environment p (StepNode.ofSteps true steps) log own ↔
          log = (run d).log ∧ own = lines := by
  intro run
  have hexpands (limit : Int) : Expands ⟨table, environment, some limit⟩ (.empty limit) p
      (StepNode.ofSteps true steps) (run limit) := expands_expand rfl htable hsteps
  constructor
  · intro hroom
    have hhigher : Expands ⟨table, environment, some d'⟩ (.empty d') p (StepNode.ofSteps true steps) (run d) :=
      (hexpands d).of_le hroom hle
    have hplain : ∀ node ∈ StepNode.ofSteps true steps, node.IsPlain :=
      StepNode.saidBy_ofSteps fun step hstep => ⟨hsteps step hstep, trivial⟩
    rw [(expands_iff htable hplain).mp hhigher]
    exact (expands_iff htable hplain).mp (hexpands d')
  · intro lines hlines log own
    have hunfolds := (hexpands d).unfolds hlines
    constructor
    · exact hunfolds.unique
    · rintro ⟨rfl, rfl⟩
      exact hunfolds

/-- A library that is included twice in a row is not too deep for a limit of one, so two make no difference. -/
theorem expand_guarded_of_twice :
    let greet : StepLibrary := ⟨"greet", [], [], [.text "hello"]⟩
    let steps : List Value := List.replicate 2 (.map [(.text "include", .text "greet")])
    expand ⟨[greet], [], some 2⟩ [] steps = expand ⟨[greet], [], some 1⟩ [] steps := by
  intro greet steps
  have htable : LibraryTable.IsPlain [greet] := by simp [LibraryTable.IsPlain, greet, Value.isPlain]
  have hsteps : ∀ step ∈ steps, step.isPlain = true := by
    simp [steps, Value.isPlain, Value.entriesPlain]
  have hends : EndsWith ⟨[greet], [], some 1⟩ (.start 1 [] (StepNode.ofSteps true steps))
      (expand ⟨[greet], [], some 1⟩ [] steps) := endsWith_expand rfl htable hsteps
  exact (expand_guarded htable hsteps [] [] (by decide)).1 (hends.not_tooDeep (by decide))

end Expander
end TestPlan
