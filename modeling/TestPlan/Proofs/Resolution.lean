import TestPlan.Proofs.Definition.Library
import TestPlan.Proofs.Expansion.Warnings
import TestPlan.Proofs.Selection

/-!
# What resolving a definition comes to

Resolving the definition of a test case answers in one of three ways: with nothing, with a test case that is
complete, or with one that has failed and holds nothing but its error, which is then reported last
(`TestCase.Answers`). Nothing else can happen to a definition without self-reference. Its shape is checked
before it is read, so its fields are there as they are read, and what remains are the expansion's own
failures: an inclusion that is refused is the error of a failed test case, and a step has no text only if an
integer in it is too long, or a key inside a pair has no name (`TestCase.resolve_answers`).
-/

namespace TestPlan

/-- A failure because of an integer that is too long, wherever it has to be written. -/
def Failure.IsDigitLimit (e : Failure) : Prop := e = .write .tooManyDigits ∨ e.IsTooLong

/-- Every integer in the libraries and in the environment can be written, and the depth limit too. -/
structure Expander.IsWritable (x : Expander) : Prop where
  libraries : ∀ library ∈ x.libraries, ∀ step ∈ library.steps, step.treeWritable = true
  environment : Entries.AllWritable x.environment
  limit : ∀ d ∈ x.maxDepth, Number.isWritable d = true

/-- A step that a value says names its keys if all mappings inside pairs of the value do. -/
theorem StepNode.SaidBy.namesKeys {node : StepNode} (h : node.SaidBy fun v => v.namesKeys false = true) :
    node.namesKeys = true := by
  obtain ⟨top, v, hv, hnames, rfl⟩ := h
  rcases ofValue_cases top hv with ⟨template, hsaid⟩ | hsaid | ⟨entries, rfl, hsaid | hsaid⟩
  · rw [hsaid]; rfl
  · rw [hsaid]; exact hnames
  · rw [hsaid, ofInclusion]
    split <;> rfl
  · rw [hsaid]; rfl

/-- Naming keys is passed on, outside pairs. -/
theorem Value.inherited_namesKeys : Inherited fun v => v.namesKeys false = true where
  item h hv := itemsNameKeys_iff.mp h _ hv
  entry h hv := (entriesNameKeys_iff.mp h _ hv).2

/-- Steps name their keys if all mappings inside pairs do, in the steps and in the libraries. -/
theorem Expander.namesKeys_of_values {x : Expander} {steps : List Value}
    (hsteps : ∀ step ∈ steps, step.isPlain = true ∧ step.namesKeys false = true)
    (hlibraries : ∀ library ∈ x.libraries, ∀ step ∈ library.steps,
      step.isPlain = true ∧ step.namesKeys false = true) : x.NamesKeys steps where
  steps _ hnode := (StepNode.SaidBy.of_among Value.inherited_namesKeys hnode
    (StepNode.saidBy_ofSteps hsteps)).namesKeys
  libraries library hlibrary _ hnode := (StepNode.SaidBy.of_among Value.inherited_namesKeys hnode
    (StepNode.saidBy_ofSteps (hlibraries library hlibrary))).namesKeys

namespace TestCase

/-- The answers to a definition. -/
inductive Answers (definition : Value) (name originalFile : Text) : Run Failure (Option TestCase) → Prop
  /-- the filter leaves the test case out, and nothing is reported -/
  | leftOut : Answers definition name originalFile (pure none)
  /-- the test case is complete, and only warnings are reported -/
  | complete {log : List Message} (hlog : ∀ message ∈ log, message.severity = .warning) (steps : List Text) :
      Answers definition name originalFile ⟨log, .ok (some (complete definition name originalFile steps))⟩
  /-- the test case has failed, and its error is reported after warnings -/
  | failed {log : List Message} (hlog : ∀ message ∈ log, message.severity = .warning) {error : Text}
      (herror : error ≠ []) :
      Answers definition name originalFile
        ⟨log ++ [⟨.error, "Error processing test case " ++ label name originalFile ++ ": " ++ error⟩],
          .ok (some (failed name originalFile error))⟩

variable {x : Expander} {d : Int} {definition : Value}

/-- Resolving a definition without self-reference, whose pairs name their keys, gives an answer unless an
integer is too long to be written. -/
theorem resolve_answers (hd : x.maxDepth = some d) (htable : x.libraries.IsPlain)
    (hplain : definition.isPlain = true) (hnames : x.NamesKeys (listField definition "steps"))
    (name originalFile : Text) (filter : Option Text) :
    Answers definition name originalFile (resolve x definition name originalFile filter) ∨
    (∃ e, (resolve x definition name originalFile filter).outcome = .error e ∧ e.IsDigitLimit) ∧
      ¬ (definition.treeWritable = true ∧ x.IsWritable) := by
  have hsteps : ∀ step ∈ listField definition "steps", step.isPlain = true := fun step hstep =>
    Value.inherited_isPlain.of_mem_listField hplain hplain hstep
  cases hvalid : validate .testCase definition (some name) with
  | error e =>
    rw [resolve_of_invalid hvalid]
    by_cases hwrite : (problems .testCase definition).all Problem.writable = true
    · rw [if_pos hwrite]
      exact .inl (@Answers.failed definition name originalFile [] (by simp) _ e.message_ne_nil)
    · rw [if_neg hwrite]
      exact .inr ⟨⟨_, rfl, .inl rfl⟩, fun h => hwrite (problems_writable hplain h.1 .testCase)⟩
  | ok =>
    by_cases hmatch : TagFilter.Matches filter (definition.field "tags").items?
    · have hwarns := Expander.expand_onlyWarns hd htable hsteps []
      cases hexpand : (x.expand [] (listField definition "steps")).outcome with
      | ok steps =>
        rw [resolve_of_expanded hvalid hmatch hexpand]
        exact .inl (.complete hwarns steps)
      | error failure =>
        rw [resolve_of_not_expanded hvalid hmatch hexpand]
        rcases Expander.expand_fails_with hd htable hsteps hnames hexpand with ⟨refusal, rfl⟩ | hlong
        · by_cases hwrite : refusal.isWritable = true
          · rw [recover, if_pos hwrite]
            exact .inl (.failed hwarns refusal.message_ne_nil)
          · rw [recover, if_neg hwrite]
            exact .inr ⟨⟨_, rfl, .inl rfl⟩, fun h => hwrite <|
              Expander.isWritable_of_refusal hd htable hsteps (h.2.limit d hd) hexpand⟩
        · refine .inr ⟨⟨failure, ?_, .inr hlong⟩, fun hwrite => ?_⟩
          · rcases hlong with rfl | rfl <;> rfl
          · have hwritable : x.Writable [] (listField definition "steps") :=
              ⟨fun step hstep => Value.inherited_treeWritable.of_mem_listField hplain hwrite.1 hstep,
                hwrite.2.libraries, fun e he => absurd he List.not_mem_nil, hwrite.2.environment⟩
            obtain ⟨refusal, rfl⟩ := hwritable.expand_fails_with hd htable hsteps hnames hexpand
            obtain ⟨fault, hfault⟩ := hlong.of_step
            exact absurd hfault (by simp)
    · rw [resolve_of_mismatch hvalid hmatch]
      exact .inl .leftOut

section Texts

variable [Runtime]

/-- Without a filter no text is left out. -/
theorem resolveText_none_ne (x : Expander) (text name originalFile : Text) :
    (resolveText x text name originalFile none).outcome ≠ .ok none := by
  unfold resolveText
  split
  next definition _ =>
    cases hvalid : validate .testCase definition (some name) with
    | ok => exact resolve_none_ne hvalid
    | error e =>
      rw [resolve_of_invalid hvalid]
      split
      · simp [fail_eq]
      · simp [Run.fail]
  · simp [fail_eq]
  · simp [Run.fail]

/-- A text becomes a test case or is left out, unless a scalar in it has no value or an integer is too long to be
written. -/
theorem resolveText_answers (hd : x.maxDepth = some d) (htable : x.libraries.IsPlain) {text : Text}
    (hplain : ∀ definition, Yaml.read text = .ok definition → definition.isPlain = true)
    (hnames : ∀ definition, Yaml.read text = .ok definition → x.NamesKeys (listField definition "steps"))
    (name originalFile : Text) (filter : Option Text) :
    (∃ entry, (resolveText x text name originalFile filter).outcome = .ok entry) ∨
    (∃ fault, (resolveText x text name originalFile filter).outcome = .error (.scalar fault) ∧
      Yaml.read text = .error (.scalar fault)) ∨
    ∃ e, (resolveText x text name originalFile filter).outcome = .error e ∧ e.IsDigitLimit ∧
      ∃ definition, Yaml.read text = .ok definition ∧ ¬ (definition.treeWritable = true ∧ x.IsWritable) := by
  unfold resolveText
  cases hread : Yaml.read text with
  | error e =>
    cases e with
    | malformed => exact .inl ⟨_, rfl⟩
    | scalar fault => exact .inr (.inl ⟨fault, rfl, rfl⟩)
  | ok definition =>
    dsimp only
    rcases resolve_answers hd htable (hplain definition hread) (hnames definition hread) name originalFile filter
      with hanswers | ⟨⟨e, he, hlimit⟩, hlong⟩
    · generalize resolve x definition name originalFile filter = run at hanswers ⊢
      cases hanswers <;> exact .inl ⟨_, rfl⟩
    · exact .inr (.inr ⟨e, he, hlimit, definition, rfl, hlong⟩)

end Texts

/-- Resolving a definition of any shape gives an answer, and so does building a library from it: neither fails
in another way than by an integer that is too long. What either of them reads is there as it is read. -/
theorem resolve_and_build_answer (hd : x.maxDepth = some d) (hbuilt : ∀ library ∈ x.libraries, library.IsBuilt)
    (hplain : definition.isPlain = true) (hnames : x.NamesKeys (listField definition "steps"))
    (name originalFile : Text) (filter : Option Text) :
    (Answers definition name originalFile (resolve x definition name originalFile filter) ∨
      (∃ e, (resolve x definition name originalFile filter).outcome = .error e ∧ e.IsDigitLimit) ∧
        ¬ (definition.treeWritable = true ∧ x.IsWritable)) ∧
    (validate .testCase definition (some name) = .ok () → CaseShape definition) ∧
    ∀ document : Value, document.isPlain = true →
      (∃ library, StepLibrary.ofDocument name document = .ok library ∧ LibraryShape document) ∨
      (∃ e, StepLibrary.ofDocument name document = .error (.definition e)) ∨
      StepLibrary.ofDocument name document = .error (.write .tooManyDigits) ∧ document.treeWritable = false := by
  refine ⟨resolve_answers hd (LibraryTable.isPlain_of_isBuilt hbuilt) hplain hnames name originalFile filter,
    caseShape_of_valid, fun document hdocument => ?_⟩
  rcases StepLibrary.ofDocument_cases name hdocument with ⟨library, hlibrary, -, -, hshape⟩ | hrefused
  · exact .inl ⟨library, hlibrary, hshape⟩
  · exact .inr hrefused

/-- A test case that includes a library twice over, once under a condition. -/
theorem resolve_and_build_answer_include :
    let document : Value := .map [(.text "steps", .list [.text "open"])]
    let library : StepLibrary := ⟨"door", [], [], [.text "open"]⟩
    let x : Expander := ⟨[library], [], some 10⟩
    let call : Value := .map [(.text "include", .text "door")]
    let definition : Value :=
      .map [(.text "steps", .list [call, .map [(.text "condition", .text "yes"), (.text "step", call)]])]
    (StepLibrary.ofDocument "door" document = .ok library ∧ definition.isPlain = true ∧
      x.NamesKeys (listField definition "steps")) ∧
    ∀ filter, Answers definition "t.yml" [] (resolve x definition "t.yml" [] filter) := by
  intro document library x call definition
  have hdocument : StepLibrary.ofDocument "door" document = .ok library :=
    StepLibrary.ofDocument_of_valid (validate_eq_ok_iff.mpr rfl)
  have hbuilt : ∀ other ∈ x.libraries, other.IsBuilt := by
    intro other hother
    obtain rfl := List.mem_singleton.mp hother
    exact ⟨"door", document, rfl, hdocument⟩
  have hnames : x.NamesKeys (listField definition "steps") := Expander.namesKeys_of_values
    (List.forall_mem_cons.mpr ⟨⟨rfl, rfl⟩, List.forall_mem_singleton.mpr ⟨rfl, rfl⟩⟩)
    (List.forall_mem_singleton.mpr (List.forall_mem_singleton.mpr ⟨rfl, rfl⟩))
  have hlimit : Number.isWritable 10 = true := by decide +kernel
  have hwritable : x.IsWritable := {
    libraries := List.forall_mem_singleton.mpr (List.forall_mem_singleton.mpr rfl)
    environment := fun e he => absurd he List.not_mem_nil
    limit := fun d hd => Option.some.inj hd ▸ hlimit }
  refine ⟨⟨hdocument, rfl, hnames⟩, fun filter => ?_⟩
  have hanswer := (resolve_and_build_answer rfl hbuilt rfl hnames "t.yml" [] filter).1
  exact hanswer.resolve_right fun hfails => hfails.2 ⟨rfl, hwritable⟩

/-- A step whose pair holds a mapping with a date as its key gives no answer: it ends the run. -/
theorem resolve_fails_of_unnamed_key :
    let x : Expander := ⟨[], [], some 10⟩
    let day : Scalar := .date ⟨2024, 1, 1, by decide, by decide, by decide⟩
    let definition : Value :=
      .map [(.text "steps", .list [.list [.pair (.text "a") (.map [(day, .text "x")])]])]
    definition.isPlain = true ∧ validate .testCase definition (some "t.yml") = .ok () ∧
      (resolve x definition "t.yml" [] none).outcome = .error (.step (.text (.key "datetime.date"))) := by
  intro x day definition
  have hvalid : validate .testCase definition (some "t.yml") = .ok () := validate_eq_ok_iff.mpr rfl
  have hexpand : (x.expand [] (listField definition "steps")).outcome =
      .error (.step (.text (.key "datetime.date"))) :=
    x.expand_of_textless [] rfl rfl (Value.stepText_of_unnamed rfl "a" (.text "x"))
  refine ⟨rfl, hvalid, ?_⟩
  rw [resolve_of_not_expanded hvalid (TagFilter.matches_none _) hexpand]
  rfl

end TestCase
end TestPlan
