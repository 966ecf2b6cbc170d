import TestPlan.Proofs.Expansion.Precedence
import TestPlan.Proofs.Expansion.Termination

/-!
# Expansion is modular

What a library comes to does not depend on the place where it is included. An expansion that succeeds on a chain
is the same on every chain that leaves at least as much room (`Expands.of_looser`), the empty one among them, so the
steps of an included library come to what each of them comes to when it is expanded alone. Nothing carries over from
one step of a test case to the next: whenever the expansion stands among them, the chain is empty and the parameters
are the ones it began with (`Expander.expansion_modular`).
-/

namespace TestPlan

/-- A chain leaves at least as much room as another one. -/
structure IncludeChain.IsLooser (looser chain : IncludeChain) : Prop where
  names : ∀ name ∈ looser.names, name ∈ chain.names
  depth : looser.depth ≤ chain.depth
  limit : looser.limit = chain.limit

namespace IncludeChain

variable {chain looser longer : IncludeChain} {name : Text}

/-- What may be entered may also be entered where there is more room, and there is more room afterwards. -/
theorem IsLooser.push (h : looser.IsLooser chain) (hpush : chain.push name = .ok longer) :
    ∃ between, looser.push name = .ok between ∧ between.IsLooser longer := by
  have hroom := room_of_push hpush
  obtain ⟨hfresh, rfl⟩ := push_eq_ok hpush
  have hdepth := h.depth
  have hlimit := h.limit
  refine ⟨_, push_of_room (fun hmem => hfresh (h.names name hmem)) (by omega), ?_, ?_, hlimit⟩
  · intro other hother
    rcases List.mem_append.mp hother with hother | hother
    · exact List.mem_append_left _ (h.names other hother)
    · exact List.mem_append_right _ hother
  · simp only [IncludeChain.depth, List.length_append] at hdepth ⊢
    omega

/-- Nothing leaves more room than the chain on which no library is. -/
theorem isLooser_empty (chain : IncludeChain) : (empty chain.limit).IsLooser chain :=
  ⟨fun _ h => absurd h List.not_mem_nil, Nat.zero_le _, rfl⟩

end IncludeChain

/-- An expansion that succeeds is the same where there is more room. -/
theorem Expands.of_looser {x : Expander} {chain looser : IncludeChain} {p : Entries Value} {nodes : List StepNode}
    {run : Run Failure (List Text)} (h : Expands x chain p nodes run) {lines : List Text}
    (hlines : run.outcome = .ok lines) (hlooser : looser.IsLooser chain) : Expands x looser p nodes run := by
  induction h generalizing lines looser with
  | nil => exact .nil
  | fault => simp at hlines
  | write h _ ih =>
    obtain ⟨own, hown, -⟩ := Run.after_outcome_eq_ok.mp hlines
    exact .write h (ih hown hlooser)
  | descend h _ ih =>
    obtain ⟨own, hown, -⟩ := Run.after_outcome_eq_ok.mp hlines
    exact .descend h (ih hown hlooser)
  | unknown h hlibrary _ ih =>
    obtain ⟨own, hown, -⟩ := Run.after_outcome_eq_ok.mp hlines
    exact .unknown h hlibrary (ih hown hlooser)
  | refused => simp at hlines
  | entered h hlibrary hpush _ hinner _ ihinner ihrest =>
    obtain ⟨own, hown, -⟩ := Run.after_outcome_eq_ok.mp hlines
    obtain ⟨between, hbetween, hlonger⟩ := hlooser.push hpush
    exact .entered h hlibrary hbetween (ihinner hinner hlonger) hinner (ihrest hown hlooser)
  | failed => simp at hlines

namespace Expander

variable {x : Expander} {d : Int} {p given : Entries Value} {name : Text} {library : StepLibrary}

/-- The steps of a library are expanded on the empty chain by processing each of them. -/
theorem expandNodes_empty_eq_gather (hd : x.maxDepth = some d) {steps : List Value}
    (hsteps : ∀ step ∈ steps, step.isPlain = true) :
    x.expandNodes (.empty d) p (StepNode.ofSteps false steps) = Run.gather (x.processStep p) steps := by
  have hrun := (x.outermost p).runAll_eq_gather steps
  rw [StepContext.runAll_eq_gather_interpret rfl hsteps, outermost_eq_inside hd] at hrun
  rw [expandNodes, hrun, ← outermost_eq_inside hd]
  rfl

/-- A library that is opened with success comes to what its steps come to when each is processed alone. -/
theorem openLibrary_eq_gather (hd : x.maxDepth = some d) (htable : x.libraries.IsPlain)
    (hlibrary : x.libraries.get? name = some library) {chain : IncludeChain} (hlimit : chain.limit = d)
    {lines : List Text} (hlines : (x.openLibrary chain p name given).outcome = .ok lines) :
    x.openLibrary chain p name given = Run.gather (x.processStep (enterWith library p given)) library.steps := by
  cases hpush : chain.push name with
  | error e =>
    rw [openLibrary_of_refused hlibrary hpush] at hlines
    simp [Run.fail] at hlines
  | ok longer =>
    rw [openLibrary_of_room htable hlibrary hpush] at hlines ⊢
    have hnodes := htable.nodes hlibrary
    have hlooser := longer.isLooser_empty
    rw [IncludeChain.push_limit hpush, hlimit] at hlooser
    have halone := (expands htable hnodes).of_looser hlines hlooser
    rw [(expands_iff htable hnodes).mp halone]
    exact expandNodes_empty_eq_gather hd (htable library (LibraryTable.mem_of_get? hlibrary))

/-- A single inclusion that succeeds comes to what the steps of its library come to, each processed alone. -/
theorem expandInclusion_eq_gather (htable : x.libraries.IsPlain) {step : Value}
    (hstep : StepNode.ofValue false step = .inclusion name given)
    (hlibrary : x.libraries.get? name = some library) {lines : List Text}
    (hlines : (x.expandInclusion p step).outcome = .ok lines) :
    x.expandInclusion p step = Run.gather (x.processStep (enterWith library p given)) library.steps := by
  rw [expandInclusion, hstep] at hlines ⊢
  cases hd : x.maxDepth with
  | none => simp [openOutermost, hd, hlibrary, Run.fail] at hlines
  | some d =>
    simp only [openOutermost, hd, Option.getD_some] at hlines ⊢
    exact openLibrary_eq_gather hd htable hlibrary rfl hlines

/-- Whenever an expansion stands among the steps that it began with, no library is on the chain, and the parameters
are those that it began with. -/
theorem outside_calls {nodes : List StepNode} {s : Moment} (h : x.Reaches (.start d p nodes) s)
    (hcalls : s.calls = []) : s.chain = .empty d ∧ s.level.parameters = p := by
  obtain ⟨hlayered, hnames⟩ := callsTell_of_reaches h
  have hlimit := (isWithin_of_reaches h).limit_eq
  rw [hcalls] at hlayered hnames
  refine ⟨?_, hlayered⟩
  cases hchain : s.chain with
  | mk names limit =>
    rw [hchain] at hnames hlimit
    obtain rfl : names = [] := hnames
    obtain rfl : limit = d := hlimit
    rfl

/-- Expansion is modular. An inclusion that succeeds comes to what the steps of its library come to, each of them
processed alone under the merged parameters, and reports what they report. Steps of a test case that are written one
after the other are expanded one after the other, up to the first part that fails. Whenever the expansion stands
among them, no library is on the chain, and the parameters are those that it began with. -/
theorem expansion_modular (htable : x.libraries.IsPlain) (p : Entries Value) :
    (∀ step name given library lines, StepNode.ofValue false step = .inclusion name given →
      x.libraries.get? name = some library → (x.expandInclusion p step).outcome = .ok lines →
      let alone := x.processStep (library.resolveParameters (p.overlay given))
      ∃ parts : List (List Text), library.steps.map (fun step => (alone step).outcome) = parts.map .ok ∧
        lines = parts.flatten ∧
        (x.expandInclusion p step).log = library.steps.flatMap fun step => (alone step).log) ∧
    (∀ first second, x.expand p (first ++ second) =
      match (x.expand p first).outcome with
      | .ok lines => ⟨(x.expand p first).log ++ (x.expand p second).log,
          (x.expand p second).outcome.map (lines ++ ·)⟩
      | .error e => ⟨(x.expand p first).log, .error e⟩) ∧
    ∀ d, x.maxDepth = some d → ∀ steps : List Value, (∀ step ∈ steps, step.isPlain = true) →
      let start := Moment.start d p (StepNode.ofSteps true steps)
      x.EndsWith start (x.expand p steps) ∧
        ∀ s, x.Reaches start s → s.calls = [] → s.chain = .empty d ∧ s.level.parameters = p := by
  refine ⟨?_, fun first second => ?_, ?_⟩
  · intro step name given library lines hstep hlibrary hlines alone
    have hinclusion := expandInclusion_eq_gather htable hstep hlibrary hlines
    rw [hinclusion] at hlines ⊢
    exact Run.exists_parts_of_gather_eq_ok hlines
  · cases hfirst : (x.expand p first).outcome with
    | ok lines => exact Run.gather_append_of_ok hfirst second
    | error e => exact Run.gather_append_of_error hfirst second
  · intro d hd steps hsteps start
    exact ⟨endsWith_expand hd htable hsteps, fun s hs => outside_calls hs⟩

/-- A library with a step to be filled, one under a condition and one that includes another library comes to these
three steps, each of them processed on its own, and reports the value that is missing in the first one. -/
theorem expansion_modular_of_call :
    let who : Entries Value := [(.text "who", .text "you")]
    let close : StepLibrary := ⟨"close", [], [], [.text "close \x7b\x7bwho\x7d\x7d", .text "lock"]⟩
    let greet : StepLibrary := ⟨"greet", [], [], [.text "hello \x7b\x7bwho\x7d\x7d\x7b\x7bsign\x7d\x7d",
      .map [(.text "condition", .text "true"), (.text "step", .text "wave")],
      .map [(.text "include", .text "close")]]⟩
    let x : Expander := ⟨[greet, close], [], some 2⟩
    let step : Value := .map [(.text "include", .text "greet"), (.text "parameters", .map who)]
    let lines : List Text := ["hello you\x7b\x7bsign\x7d\x7d", "wave", "close you", "lock"]
    let alone := x.processStep (greet.resolveParameters (Entries.overlay [] who))
    (x.expandInclusion [] step).outcome = .ok lines ∧ (x.expandInclusion [] step).log.length = 1 ∧
      (∃ parts : List (List Text), greet.steps.map (fun step => (alone step).outcome) = parts.map .ok ∧
        lines = parts.flatten) ∧
      (x.expandInclusion [] step).log = greet.steps.flatMap fun step => (alone step).log := by
  intro who close greet x step lines alone
  have htable : x.libraries.IsPlain := by
    simp [x, greet, close, LibraryTable.IsPlain, Value.isPlain, Value.entriesPlain]
  have hlines : (x.expandInclusion [] step).outcome = .ok lines := by decide +kernel
  have hlog : (x.expandInclusion [] step).log.length = 1 := by decide +kernel
  obtain ⟨parts, hparts, hflatten, hlogs⟩ :=
    (expansion_modular htable []).1 step "greet" who greet lines rfl rfl hlines
  exact ⟨hlines, hlog, ⟨parts, hparts, hflatten⟩, hlogs⟩

end Expander
end TestPlan
