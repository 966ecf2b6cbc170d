import TestPlan.Proofs.Expansion.Action

/-!
# Three ways to begin

An expansion begins with the steps of a test case, with one step of a library, or with a single inclusion. All
three carry out what a step says, and they differ only in how they read a mapping that both includes a library
and has a condition. Any other step they expand alike, and such a mapping they expand as if the key that
counts less were not there (`Expander.beginnings_agree`).
-/

namespace TestPlan

/-- Entries without those that have a text as their key. -/
def Entries.without {α : Type} (name : Text) (entries : Entries α) : Entries α :=
  entries.filter fun entry => entry.1 ≠ .text name

/-- Without a name, the name finds nothing and every other one what it found before. -/
theorem Entries.find?_without {α : Type} (name other : Text) (entries : Entries α) :
    (entries.without name).find? other = if other = name then none else entries.find? other := by
  induction entries with
  | nil => simp [without, find?]
  | cons entry rest ih =>
    obtain ⟨key, v⟩ := entry
    rw [without] at ih ⊢
    by_cases hkey : key = .text name
    · rw [List.filter_cons_of_neg (by simpa using hkey), ih, find?, hkey]
      by_cases hother : other = name
      · simp [hother]
      · simp [hother, Ne.symm hother]
    · rw [List.filter_cons_of_pos (by simpa using hkey), find?, ih, find?]
      by_cases hother : other = name
      · simp [hother, hkey]
      · simp [hother]

/-- A mapping without self-reference has none when entries are left out. -/
theorem Value.isPlain_without {entries : Entries Value} (h : (Value.map entries).isPlain = true) (name : Text) :
    (Value.map (entries.without name)).isPlain = true :=
  entriesPlain_iff.mpr fun entry hentry => entriesPlain_iff.mp h entry (List.mem_filter.mp hentry).1

/-- Of the values without self-reference only mappings have a field that counts as present. -/
theorem Value.exists_entries_of_field {v : Value} (hv : v.isPlain = true) {name : Text}
    (h : (v.field name).truthy = true) : ∃ entries, v = .map entries := by
  cases v with
  | map entries => exact ⟨entries, rfl⟩
  | knot g index => simp [isPlain] at hv
  | _ => exact absurd h Bool.false_ne_true

namespace StepNode

variable {entries : Entries Value} {name : Text}

/-- A field is not changed when entries with another name are left out. -/
theorem get_without {other : Text} (h : other ≠ name) (entries : Entries Value) :
    get (entries.without name) other = get entries other := by
  rw [get, get, Entries.find?_without, if_neg h]

/-- A step is read alike at the top level of a test case and below it, unless it both includes a library and has a
condition. -/
theorem ofValue_true_eq {v : Value}
    (h : ¬ ((v.field "include").truthy = true ∧ (v.field "condition").truthy = true)) :
    ofValue true v = ofValue false v := by
  unfold ofValue
  split
  · rfl
  next entries hview =>
    have hfield (name : Text) : v.field name = get entries name := by
      simp [Value.field, Value.field?, Value.entries?, hview, get]
    rw [hfield, hfield] at h
    by_cases hincludes : (get entries "include").truthy = true
    · have hcondition : (get entries "condition").truthy = false := by simpa [hincludes] using h
      simp [ofEntries, hincludes, hcondition]
    · simp [ofEntries, hincludes]
  · rfl

/-- At the top level of a test case a step that includes a library is an inclusion. -/
theorem ofEntries_true_eq_ofInclusion {raw : Value} (h : (get entries "include").truthy = true) :
    ofEntries true raw entries = ofInclusion entries := by
  rw [ofEntries, h]
  rfl

/-- Below it a step that has a condition is conditional. -/
theorem ofEntries_false_eq_conditional {raw : Value} (h : (get entries "condition").truthy = true) :
    ofEntries false raw entries =
      conditional (get entries "condition") (get entries "step") (get entries "steps").items? := by
  rw [ofEntries, h]
  rfl

/-- At the top level of a test case the condition of an inclusion does not count. -/
theorem ofEntries_true_without {raw other : Value} (h : (get entries "include").truthy = true) :
    ofEntries true raw entries = ofEntries true other (entries.without "condition") := by
  have hinclude : get (entries.without "condition") "include" = get entries "include" :=
    get_without (by decide) entries
  have hparameters : get (entries.without "condition") "parameters" = get entries "parameters" :=
    get_without (by decide) entries
  rw [ofEntries_true_eq_ofInclusion h, ofEntries_true_eq_ofInclusion (hinclude ▸ h), ofInclusion, ofInclusion,
    hinclude, hparameters]

/-- Below it the inclusion of a conditional step does not count. -/
theorem ofEntries_false_without {raw other : Value} (h : (get entries "condition").truthy = true) :
    ofEntries false raw entries = ofEntries false other (entries.without "include") := by
  have hcondition : get (entries.without "include") "condition" = get entries "condition" :=
    get_without (by decide) entries
  have hstep : get (entries.without "include") "step" = get entries "step" := get_without (by decide) entries
  have hsteps : get (entries.without "include") "steps" = get entries "steps" := get_without (by decide) entries
  rw [ofEntries_false_eq_conditional h, ofEntries_false_eq_conditional (hcondition ▸ h), hcondition, hstep, hsteps]

end StepNode

namespace Expander

variable {x : Expander} {p : Entries Value} {step : Value}

/-- A step of a test case is expanded by carrying out what it says at the top level. -/
theorem expand_singleton (hstep : step.isPlain = true) :
    x.expand p [step] = (x.outermost p).interpret (.ofValue true step) := by
  rw [expand, Run.gather_singleton, StepContext.runTop_eq_interpret rfl hstep]

/-- A step of a library is expanded by carrying out what it says below the top level. -/
theorem processStep_eq_interpret (hstep : step.isPlain = true) :
    x.processStep p step = (x.outermost p).interpret (.ofValue false step) :=
  StepContext.run_eq_interpret rfl hstep

/-- A single inclusion is expanded by carrying out what it says. -/
theorem expandInclusion_eq_interpret {entries : Entries Value}
    (hstep : StepNode.ofValue false step = .ofInclusion entries) :
    x.expandInclusion p step = (x.outermost p).interpret (.ofInclusion entries) := by
  rw [expandInclusion, hstep, StepNode.ofInclusion]
  cases (StepNode.get entries "include").write Value.display with
  | ok library => rw [StepContext.interpret, StepNode.action, pure_bind]; rfl
  | error fault => rfl

/-- The three ways to begin an expansion agree. A step that does not both include a library and have a condition is
expanded alike as the only step of a test case and as a step of a library, and if it includes a library also as a
single inclusion. A step with both is expanded as if it had no condition when it is a step of a test case, and as if
it included nothing when it is a step of a library. -/
theorem beginnings_agree (x : Expander) (p : Entries Value) (hstep : step.isPlain = true) :
    let includes := (step.field "include").truthy = true
    let conditional := (step.field "condition").truthy = true
    (¬ (includes ∧ conditional) → x.expand p [step] = x.processStep p step ∧
      (includes → x.expandInclusion p step = x.processStep p step)) ∧
    (includes ∧ conditional → ∃ entries, step = .map entries ∧
      x.expand p [step] = x.expand p [.map (Entries.without "condition" entries)] ∧
      x.processStep p step = x.processStep p (.map (Entries.without "include" entries))) := by
  intro includes conditional
  constructor
  · intro hone
    have hsame : StepNode.ofValue true step = StepNode.ofValue false step := StepNode.ofValue_true_eq hone
    refine ⟨by rw [expand_singleton hstep, processStep_eq_interpret hstep, hsame], fun hincludes => ?_⟩
    obtain ⟨entries, rfl⟩ := Value.exists_entries_of_field hstep hincludes
    have hinclusion : StepNode.ofValue false (.map entries) = .ofInclusion entries :=
      hsame.symm.trans (StepNode.ofEntries_true_eq_ofInclusion hincludes)
    rw [expandInclusion_eq_interpret hinclusion, processStep_eq_interpret hstep, hinclusion]
  · rintro ⟨hincludes, hconditional⟩
    obtain ⟨entries, rfl⟩ := Value.exists_entries_of_field hstep hincludes
    refine ⟨entries, rfl, ?_, ?_⟩
    · rw [expand_singleton hstep, expand_singleton (Value.isPlain_without hstep _)]
      exact congrArg _ (StepNode.ofEntries_true_without hincludes)
    · rw [processStep_eq_interpret hstep, processStep_eq_interpret (Value.isPlain_without hstep _)]
      exact congrArg _ (StepNode.ofEntries_false_without hconditional)

/-- A step that includes a library under a condition that does not hold is the library in a test case, and nothing
in a library. -/
theorem beginnings_agree_of_both :
    let greet : StepLibrary := ⟨"greet", [], [], [.text "hello"]⟩
    let x : Expander := ⟨[greet], [], some 1⟩
    let condition : Scalar × Value := (.text "condition", .text "false")
    let inclusion : Scalar × Value := (.text "include", .text "greet")
    let step : Value := .map [condition, inclusion]
    step.isPlain = true ∧ x.expand [] [step] = x.expand [] [.map [inclusion]] ∧
      (x.expand [] [step]).outcome = .ok ["hello"] ∧
      x.processStep [] step = x.processStep [] (.map [condition]) ∧ (x.processStep [] step).outcome = .ok [] := by
  intro greet x condition inclusion step
  have hstep : step.isPlain = true := rfl
  obtain ⟨entries, hentries, htop, hbelow⟩ := (beginnings_agree x [] hstep).2 ⟨by decide, by decide⟩
  obtain rfl := Value.map.inj hentries
  exact ⟨hstep, htop, by decide +kernel, hbelow, by decide +kernel⟩

end Expander
end TestPlan
