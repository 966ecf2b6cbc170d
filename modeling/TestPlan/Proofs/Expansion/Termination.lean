import TestPlan.Proofs.Expansion.Faults
import TestPlan.Proofs.Expansion.Moments

/-!
# Expansion ends

At every moment of an expansion the include chain names libraries of the table, none of them twice, and
not more of them than its limit allows (`IncludeChain.IsWithin`). So it is never longer than the table,
and where the limit is not below the number of libraries no inclusion is too deep.

An expansion passes through finitely many moments. It ends with lines, with an inclusion that the chain
refuses, or with an integer that is too long to be written; the last cannot be where all of them are short
enough (`Expander.expand_ends`). What comes of keys that cannot be named inside pairs is left open.
-/

namespace TestPlan.Expander

variable {x : Expander} {d : Int} {p : Entries Value}

/-- One move keeps to the limit. -/
theorem isWithin_of_advance {s t : Moment} (h : s.chain.IsWithin x.libraries d) (hmove : x.advance s = .on t) :
    t.chain.IsWithin x.libraries d := by
  rcases advance_cases hmove with ⟨call, calls, -, rfl⟩ | ⟨log, lines, pending, rfl⟩ |
    ⟨name, library, longer, log, given, rest, hlibrary, hpush, rfl⟩
  · exact h.left
  · exact h
  · exact h.push (LibraryTable.mem_names_of_get? hlibrary) hpush

/-- At every moment the chain keeps to the limit. -/
theorem isWithin_of_reaches {nodes : List StepNode} {s : Moment} (h : x.Reaches (.start d p nodes) s) :
    s.chain.IsWithin x.libraries d :=
  h.invariant (P := fun s => s.chain.IsWithin x.libraries d) (IncludeChain.isWithin_empty x.libraries d)
    fun _ _ => isWithin_of_advance

/-- An expansion is over because all is done, because of a step, or because the chain refuses a library. -/
theorem over_cases {s : Moment} {run : Run Failure (List Text)} (h : x.advance s = .over run) :
    (∃ lines, run.outcome = .ok lines) ∨ (∃ fault, run.outcome = .error (.step fault)) ∨
      ∃ name library refusal, x.libraries.get? name = some library ∧ s.chain.push name = .error refusal ∧
        run.outcome = .error (.inclusion refusal) := by
  unfold advance at h
  split at h
  · split at h
    · exact .inl ⟨_, congrArg Run.outcome (Progress.over.inj h).symm⟩
    · simp at h
  next node rest hpending =>
    simp only at h
    split at h
    next e hlook =>
      obtain rfl := Progress.over.inj h
      obtain ⟨fault, rfl⟩ := StepNode.action_fails_in_step hlook
      exact .inr (.inl ⟨fault, rfl⟩)
    · simp at h
    · simp at h
    next name given hlook =>
      split at h
      · simp at h
      next library hlibrary =>
        split at h
        next refusal hpush =>
          exact .inr (.inr ⟨name, library, refusal, hlibrary, hpush,
            congrArg Run.outcome (Progress.over.inj h).symm⟩)
        · simp at h

/-- No inclusion is too deep where the limit is not below the number of libraries. -/
theorem EndsWith.not_tooDeep {nodes : List StepNode} {run : Run Failure (List Text)}
    (h : x.EndsWith (.start d p nodes) run) (hlimit : (x.libraries.length : Int) ≤ d) (names : List Text)
    (most : Int) : run.outcome ≠ .error (.inclusion (.tooDeep names most)) := by
  intro htooDeep
  obtain ⟨last, hreaches, hover⟩ := h
  rcases over_cases hover with ⟨lines, hlines⟩ | ⟨fault, hfault⟩ |
    ⟨name, library, refusal, hlibrary, hpush, hrefused⟩
  · simp [hlines] at htooDeep
  · simp [hfault] at htooDeep
  · obtain rfl : refusal = .tooDeep names most := by simpa [hrefused] using htooDeep
    exact (isWithin_of_reaches hreaches).not_tooDeep (LibraryTable.mem_names_of_get? hlibrary) hlimit names
      most hpush

/-- Expansion always ends, after finitely many moments and in one way. Where the keys inside pairs can be
named it ends with lines, with a refused inclusion, or with an integer that is too long. At every moment the
include chain has no duplicate, names only libraries of the table, and is not longer than the limit or the
table; where the limit is not below the number of libraries, no inclusion is too deep. -/
theorem expand_ends (hd : x.maxDepth = some d) (htable : x.libraries.IsPlain) (p : Entries Value)
    {steps : List Value} (hsteps : ∀ step ∈ steps, step.isPlain = true) :
    let start := Moment.start d p (StepNode.ofSteps true steps)
    let outcome := (x.expand p steps).outcome
    (∀ run, x.EndsWith start run ↔ run = x.expand p steps) ∧
      (¬ ∃ moments : Nat → Moment, moments 0 = start ∧ ∀ n, x.advance (moments n) = .on (moments (n + 1))) ∧
      (x.NamesKeys steps → (∃ lines, outcome = .ok lines) ∨
        (∃ refusal, outcome = .error (.inclusion refusal)) ∨
        ∃ e : Failure, outcome = .error e ∧ e.IsTooLong ∧ ¬ x.Writable p steps) ∧
      (∀ s, x.Reaches start s → s.chain.names.Nodup ∧ (∀ name ∈ s.chain.names, name ∈ x.libraries.names) ∧
        (s.chain.names.length : Int) ≤ min (max d 0) x.libraries.length) ∧
      ((x.libraries.length : Int) ≤ d →
        ∀ names limit, outcome ≠ .error (.inclusion (.tooDeep names limit))) := by
  intro start outcome
  have hends : x.EndsWith start (x.expand p steps) := endsWith_expand hd htable hsteps
  refine ⟨fun run => ⟨fun h => h.unique hends, ?_⟩, hends.not_forever, fun hnames => ?_, fun s hs => ?_,
    hends.not_tooDeep⟩
  · rintro rfl
    exact hends
  · cases houtcome : outcome with
    | ok lines => exact .inl ⟨lines, rfl⟩
    | error e =>
      by_cases hwritable : x.Writable p steps
      · obtain ⟨refusal, rfl⟩ := hwritable.expand_fails_with hd htable hsteps hnames houtcome
        exact .inr (.inl ⟨refusal, rfl⟩)
      · rcases expand_fails_with hd htable hsteps hnames houtcome with ⟨refusal, rfl⟩ | hlong
        · exact .inr (.inl ⟨refusal, rfl⟩)
        · exact .inr (.inr ⟨e, rfl, hlong, hwritable⟩)
  · have hwithin := isWithin_of_reaches hs
    have hlength := hwithin.length_le
    have hbounded := hwithin.bounded
    exact ⟨hwithin.nodup, hwithin.known, by omega⟩

/-- A library that includes itself is entered as often as the limit allows, and no inclusion is too deep. -/
theorem expand_ends_of_loop :
    let loop : StepLibrary := ⟨"loop", [], [], [.map [(.text "include", .text "loop")]]⟩
    let x : Expander := ⟨[loop], [], some 1⟩
    x.EndsWith (.start 1 [] (StepNode.ofSteps true loop.steps)) (x.expand [] loop.steps) ∧
      ∀ names limit, (x.expand [] loop.steps).outcome ≠ .error (.inclusion (.tooDeep names limit)) := by
  intro loop x
  have hsteps : ∀ step ∈ loop.steps, step.isPlain = true := by simp [loop, Value.isPlain, Value.entriesPlain]
  have htable : x.libraries.IsPlain := by simpa [x, LibraryTable.IsPlain] using hsteps
  obtain ⟨hends, -, -, -, hroom⟩ := expand_ends (x := x) rfl htable [] hsteps
  exact ⟨(hends _).mpr rfl, hroom (by decide)⟩

/-- Lines and refused inclusions are not all that an expansion ends with: an integer that is too long has no
text, and neither has a key inside a pair that cannot be named. -/
theorem expand_ends_otherwise :
    let x : Expander := ⟨[], [], some 10⟩
    let long : List Value := [.int (Int.pow 10 Number.digitLimit)]
    let day : Scalar := .date ⟨2024, 1, 1, by decide, by decide, by decide⟩
    let unnamed : List Value := [.list [.pair (.text "a") (.map [(day, .text "x")])]]
    ∀ steps ∈ [long, unnamed], (∀ step ∈ steps, step.isPlain = true) ∧
      ¬ ((∃ lines, (x.expand [] steps).outcome = .ok lines) ∨
        ∃ refusal, (x.expand [] steps).outcome = .error (.inclusion refusal)) := by
  intro x long day unnamed steps hsteps
  have hlong : (x.expand [] long).outcome = .error (.step (.text (.write .tooManyDigits))) :=
    x.expand_of_textless [] rfl rfl (Value.stepText_of_long Number.isWritable_limit)
  have hunnamed : (x.expand [] unnamed).outcome = .error (.step (.text (.key "datetime.date"))) :=
    x.expand_of_textless [] rfl rfl (Value.stepText_of_unnamed rfl "a" (.text "x"))
  rcases List.mem_pair.mp hsteps with rfl | rfl
  · exact ⟨by simp [long, Value.isPlain], by simp [hlong]⟩
  · exact ⟨by simp [unnamed, Value.isPlain, Value.arePlain, Value.entriesPlain], by simp [hunnamed]⟩

end TestPlan.Expander
