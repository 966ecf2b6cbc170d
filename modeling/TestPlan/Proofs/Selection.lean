import TestPlan.Proofs.Definition.Shape
import TestPlan.Proofs.Sequence
import TestPlan.TestSuite

/-!
# Selection by tags

A tag filter is a condition on the tags of a definition (`TagFilter.Matches`), and deciding it cannot fail
on a valid definition, whose tags are scalars. So resolving a definition under a filter is one of two things:
what resolving it without a filter is, or nothing, and nothing exactly for a valid definition whose tags do
not match (`OnlySelects`). Test cases and test suites are alike in this; the test cases of a suite never see
its filter.
-/

namespace TestPlan

namespace TagFilter

/-- A filter setting lets a tag list through: there is no filter, or no list, or the tags of some group of
the filter are all on a list that is not empty. -/
def Matches (setting : Option Text) (tags : Option (List Value)) : Prop :=
  ∀ filter ∈ ofSetting? setting, ∀ own ∈ tags,
    own ≠ [] ∧ ∃ group ∈ filter, ∀ tag ∈ group, Value.text tag ∈ own

/-- Without a filter all tags match. -/
theorem matches_none (tags : Option (List Value)) : Matches none tags := by simp [Matches, ofSetting?]

/-- A filter admits tags if there are any and one of its groups is among them. -/
theorem admits_iff {filter : TagFilter} {own : List Value} :
    filter.admits own = true ↔ own ≠ [] ∧ ∃ group ∈ filter, ∀ tag ∈ group, Value.text tag ∈ own := by
  have htext (tag : Text) : tag ∈ own.filterMap Value.text? ↔ Value.text tag ∈ own := by
    rw [List.mem_filterMap]
    constructor
    · rintro ⟨v, hv, htext⟩
      cases v with
      | scalar s =>
        cases s <;> simp [Value.text?] at htext
        exact htext ▸ hv
      | _ => simp [Value.text?] at htext
    · exact fun h => ⟨_, h, rfl⟩
  simp [admits, htext, List.isEmpty_eq_false_iff]

/-- Scalars have no container among them. -/
theorem containerTag?_eq_none {tags : List Value} (h : ∀ tag ∈ tags, ∃ s, tag = .scalar s) :
    containerTag? tags = none := by
  induction tags with
  | nil => rfl
  | cons tag rest ih =>
    obtain ⟨s, rfl⟩ := h tag List.mem_cons_self
    exact ih fun other hother => h other (List.mem_cons_of_mem _ hother)

/-- A list of scalars is compared with a filter. -/
theorem passes_of_scalars {tags : Option (List Value)} (h : ∀ own ∈ tags, ∀ tag ∈ own, ∃ s, tag = .scalar s)
    (setting : Option Text) :
    ∃ passed : Bool, passes setting tags = .ok passed ∧ (passed = true ↔ Matches setting tags) := by
  unfold passes Matches
  cases ofSetting? setting with
  | none => exact ⟨true, rfl, by simp⟩
  | some filter =>
    cases tags with
    | none => exact ⟨true, rfl, by simp⟩
    | some own =>
      simp only [containerTag?_eq_none (h own rfl), Option.mem_some_iff, forall_eq']
      exact ⟨_, rfl, admits_iff⟩

/-- A valid definition can be held against every filter. -/
theorem passes_of_valid {kind : DocumentKind} (hkind : kind ≠ .stepLibrary) {definition : Value}
    {source : Option Text} (hvalid : validate kind definition source = .ok ()) (setting : Option Text) :
    ∃ passed : Bool, passes setting (definition.field "tags").items? = .ok passed ∧
      (passed = true ↔ Matches setting (definition.field "tags").items?) := by
  refine passes_of_scalars (fun own hown tag htag => scalar_of_mem_tags hkind hvalid ?_) setting
  rw [Option.mem_def] at hown
  rwa [TestCase.listField, hown, Option.getD_some]

end TagFilter

/-- How resolving a definition depends on the filter, when `refuse` is what becomes of a definition with an
error: a filter leaves a valid definition out, or it changes nothing. -/
structure OnlySelects {α : Type} (kind : DocumentKind) (definition : Value) (name : Text)
    (refuse : DefinitionError → Run Failure (Option α)) (resolve : Option Text → Run Failure (Option α)) :
    Prop where
  /-- what is not left out does not depend on the filter -/
  selected : ∀ filter, (resolve filter).outcome ≠ .ok none → resolve filter = resolve none
  /-- a definition is left out exactly if it is valid and its tags do not match -/
  left_out_iff : ∀ filter, (resolve filter).outcome = .ok none ↔
    validate kind definition (some name) = .ok () ∧
      ¬ TagFilter.Matches filter (definition.field "tags").items?
  /-- what is left out leaves no message -/
  silent : ∀ filter, (resolve filter).outcome = .ok none → (resolve filter).log = []
  /-- an error is reported under every filter, unless an integer in the definition cannot be written -/
  reported : ∀ e, validate kind definition (some name) = .error e →
    (∀ filter, resolve filter = refuse e) ∨
      definition.treeWritable = false ∧ ∀ filter, resolve filter = Run.fail (.write .tooManyDigits)

/-- Resolving only selects if it refuses invalid definitions, and a valid one is resolved as without a filter
where its tags match. -/
theorem onlySelects_of {α : Type} {kind : DocumentKind} {definition : Value} {name : Text}
    {refuse : DefinitionError → Run Failure (Option α)} {resolve : Option Text → Run Failure (Option α)}
    (hplain : definition.isPlain = true) (hrefuse : ∀ e, (refuse e).outcome ≠ .ok none)
    (hinvalid : ∀ filter e, validate kind definition (some name) = .error e → resolve filter =
      if (problems kind definition).all Problem.writable then refuse e else Run.fail (.write .tooManyDigits))
    (hmatch : ∀ filter, validate kind definition (some name) = .ok () →
      TagFilter.Matches filter (definition.field "tags").items? → resolve filter = resolve none)
    (hnone : validate kind definition (some name) = .ok () → (resolve none).outcome ≠ .ok none)
    (hmismatch : ∀ filter, validate kind definition (some name) = .ok () →
      ¬ TagFilter.Matches filter (definition.field "tags").items? → resolve filter = pure none) :
    OnlySelects kind definition name refuse resolve := by
  cases hvalid : validate kind definition (some name) with
  | ok =>
    have hleft (filter : Option Text) : (resolve filter).outcome = .ok none ↔
        ¬ TagFilter.Matches filter (definition.field "tags").items? := by
      by_cases h : TagFilter.Matches filter (definition.field "tags").items?
      · exact iff_of_false (hmatch filter hvalid h ▸ hnone hvalid) (not_not_intro h)
      · exact iff_of_true (by rw [hmismatch filter hvalid h]; rfl) h
    exact {
      selected := fun filter h => hmatch filter hvalid (not_not.mp (mt (hleft filter).mpr h))
      left_out_iff := fun filter => (hleft filter).trans (and_iff_right hvalid).symm
      silent := fun filter h => by rw [hmismatch filter hvalid ((hleft filter).mp h)]; rfl
      reported := fun e he => by simp [hvalid] at he }
  | error e =>
    have hsame (filter : Option Text) := hinvalid filter e hvalid
    have hleft (filter : Option Text) : (resolve filter).outcome ≠ .ok none := by
      rw [hsame filter]
      split
      · exact hrefuse e
      · simp [Run.fail]
    refine {
      selected := fun filter _ => (hsame filter).trans (hsame none).symm
      left_out_iff := fun filter => iff_of_false (hleft filter) (by simp [hvalid])
      silent := fun filter h => absurd h (hleft filter)
      reported := fun other hother => ?_ }
    obtain rfl : e = other := Except.error.inj (hvalid.symm.trans hother)
    by_cases hwrite : (problems kind definition).all Problem.writable = true
    · exact .inl fun filter => (hsame filter).trans (if_pos hwrite)
    · refine .inr ⟨?_, fun filter => (hsame filter).trans (if_neg hwrite)⟩
      exact Bool.eq_false_iff.mpr (mt (fun h => problems_writable hplain h kind) hwrite)

/-- Every error of a definition says something. -/
theorem DefinitionError.message_ne_nil (e : DefinitionError) : e.message ≠ [] := by
  cases e <;> exact List.cons_ne_nil _ _

/-- Every refusal of an inclusion says something. -/
theorem IncludeError.message_ne_nil (e : IncludeError) : e.message ≠ [] := by
  cases e <;> exact List.cons_ne_nil _ _

namespace TestCase

variable {x : Expander} {definition : Value} {name originalFile : Text}

/-- A failed test case is reported, and is a test case. -/
theorem fail_eq (name originalFile reported error : Text) : fail name originalFile reported error =
    ⟨[⟨.error, "Error processing test case " ++ label name originalFile ++ ": " ++ reported⟩],
      .ok (some (failed name originalFile error))⟩ := rfl

/-- A definition that is not valid becomes a failed test case if its problems can be written. -/
theorem resolve_of_invalid {e : DefinitionError} (h : validate .testCase definition (some name) = .error e)
    (filter : Option Text) : resolve x definition name originalFile filter =
      if (problems .testCase definition).all Problem.writable then fail name originalFile e.message e.message
      else Run.fail (.write .tooManyDigits) := by
  unfold resolve build
  rw [requireValid_of_invalid h]
  split <;> rfl

/-- A valid definition whose tags do not match is left out. -/
theorem resolve_of_mismatch (hvalid : validate .testCase definition (some name) = .ok ()) {filter : Option Text}
    (hmismatch : ¬ TagFilter.Matches filter (definition.field "tags").items?) :
    resolve x definition name originalFile filter = pure none := by
  obtain ⟨passed, hpasses, hpassed⟩ := TagFilter.passes_of_valid (by decide) hvalid filter
  obtain rfl : passed = false := Bool.eq_false_iff.mpr (mt hpassed.mp hmismatch)
  unfold resolve build
  dsimp only
  rw [requireValid_eq_ok_iff.mpr hvalid, hpasses]
  rfl

/-- The test case that a definition with these instructions is. -/
def complete (definition : Value) (name originalFile : Text) (steps : List Text) : TestCase where
  name := name
  originalFile := originalFile
  description := Parameter.descriptionOf definition
  tags := (definition.field "tags").items?.getD []
  steps := steps
  rawSteps := listField definition "steps"
  error := none

/-- What becomes of a definition whose steps cannot be expanded: a refused inclusion gives a failed test
case, if the reason can be written, and other failures stay failures. -/
def recover (name originalFile : Text) : Failure → Run Failure (Option TestCase)
  | .definition e => fail name originalFile e.message e.message
  | .inclusion e =>
    if e.isWritable then fail name originalFile e.message e.message else Run.fail (.write .tooManyDigits)
  | failure => Run.fail failure

section Match

variable (hvalid : validate .testCase definition (some name) = .ok ()) {filter : Option Text}
  (hmatch : TagFilter.Matches filter (definition.field "tags").items?)
include hvalid hmatch

/-- A valid definition whose tags match becomes what its steps expand to. -/
theorem resolve_of_match : resolve x definition name originalFile filter =
    tryCatch (do return some (complete definition name originalFile
      (← x.expand [] (listField definition "steps")))) (recover name originalFile) := by
  obtain ⟨passed, hpasses, hpassed⟩ := TagFilter.passes_of_valid (by decide) hvalid filter
  obtain rfl : passed = true := hpassed.mpr hmatch
  unfold resolve build
  dsimp only
  rw [requireValid_eq_ok_iff.mpr hvalid, hpasses]
  rfl

/-- Steps that can be expanded give a test case. -/
theorem resolve_of_expanded {steps : List Text}
    (h : (x.expand [] (listField definition "steps")).outcome = .ok steps) :
    resolve x definition name originalFile filter = ⟨(x.expand [] (listField definition "steps")).log,
      .ok (some (complete definition name originalFile steps))⟩ := by
  rw [resolve_of_match hvalid hmatch, Run.bind_of_ok h, Run.tryCatch_of_ok rfl]
  simp

/-- Steps that cannot be expanded give what the failure comes to. -/
theorem resolve_of_not_expanded {failure : Failure}
    (h : (x.expand [] (listField definition "steps")).outcome = .error failure) :
    resolve x definition name originalFile filter = ⟨(x.expand [] (listField definition "steps")).log ++
      (recover name originalFile failure).log, (recover name originalFile failure).outcome⟩ := by
  rw [resolve_of_match hvalid hmatch, Run.bind_of_error h, Run.tryCatch_of_error rfl]

end Match

/-- A failure gives a failed test case, or it is followed by another one. -/
theorem recover_cases (name originalFile : Text) (failure : Failure) :
    (∃ error ≠ [], recover name originalFile failure = fail name originalFile error error) ∨
      ∃ e, recover name originalFile failure = Run.fail e := by
  cases failure with
  | definition e => exact .inl ⟨e.message, e.message_ne_nil, rfl⟩
  | inclusion e =>
    by_cases hwrite : e.isWritable = true
    · exact .inl ⟨e.message, e.message_ne_nil, if_pos hwrite⟩
    · exact .inr ⟨_, if_neg hwrite⟩
  | _ => exact .inr ⟨_, rfl⟩

/-- No valid definition is left out without a filter. -/
theorem resolve_none_ne (hvalid : validate .testCase definition (some name) = .ok ()) :
    (resolve x definition name originalFile none).outcome ≠ .ok none := by
  cases h : (x.expand [] (listField definition "steps")).outcome with
  | ok steps => simp [resolve_of_expanded hvalid (TagFilter.matches_none _) h]
  | error failure =>
    rw [resolve_of_not_expanded hvalid (TagFilter.matches_none _) h]
    rcases recover_cases name originalFile failure with ⟨error, -, hfail⟩ | ⟨e, hfail⟩
    · simp [hfail, fail_eq]
    · simp [hfail, Run.fail]

/-- Test cases are only selected. -/
theorem onlySelects (hplain : definition.isPlain = true) :
    OnlySelects .testCase definition name (fun e => fail name originalFile e.message e.message)
      (resolve x definition name originalFile) :=
  onlySelects_of hplain (by simp [fail_eq])
    (fun filter e h => resolve_of_invalid h filter)
    (fun filter hvalid hmatch => by
      rw [resolve_of_match hvalid hmatch, resolve_of_match hvalid (TagFilter.matches_none _)])
    resolve_none_ne
    (fun filter hvalid hmismatch => resolve_of_mismatch hvalid hmismatch)

end TestCase

namespace TestSuite

variable {x : Expander} {read : CaseReader} {definition : Value} {name originalFile : Text}

/-- The suite that a definition with these items is. -/
def complete (definition : Value) (name originalFile : Text) (items : List (Option Item)) : TestSuite where
  name := name
  originalFile := originalFile
  suiteName :=
    let declared := (definition.field "name").text?.getD []
    if declared.isEmpty then name else declared
  description := Parameter.descriptionOf definition
  tags := (definition.field "tags").items?.getD []
  preActions := TestCase.listField definition "pre-actions"
  postActions := TestCase.listField definition "post-actions"
  testCases := items.filterMap fun item => item.bind Item.case?
  errors := items.filterMap fun item => item.bind Item.error?
  error := none

/-- A failed suite is reported, and is a suite. -/
theorem fail_eq (name originalFile reported error : Text) : fail name originalFile reported error =
    ⟨[⟨.error, "Error processing test suite " ++ TestCase.label name originalFile ++ ": " ++ reported⟩],
      .ok (some (failed name originalFile error))⟩ := rfl

variable [Runtime]

/-- A definition that is not valid becomes a failed suite if its problems can be written. -/
theorem resolve_of_invalid {e : DefinitionError} (h : validate .testSuite definition (some name) = .error e)
    (filter : Option Text) : resolve x read definition name originalFile filter =
      if (problems .testSuite definition).all Problem.writable then fail name originalFile e.message e.message
      else Run.fail (.write .tooManyDigits) := by
  unfold resolve
  rw [requireValid_of_invalid h]
  by_cases hwrite : (problems .testSuite definition).all Problem.writable = true
  · rw [if_pos hwrite, if_pos hwrite]
  · rw [if_neg hwrite, if_neg hwrite]

/-- A valid definition whose tags do not match is left out. -/
theorem resolve_of_mismatch (hvalid : validate .testSuite definition (some name) = .ok ())
    {filter : Option Text} (hmismatch : ¬ TagFilter.Matches filter (definition.field "tags").items?) :
    resolve x read definition name originalFile filter = pure none := by
  obtain ⟨passed, hpasses, hpassed⟩ := TagFilter.passes_of_valid (by decide) hvalid filter
  obtain rfl : passed = false := Bool.eq_false_iff.mpr (mt hpassed.mp hmismatch)
  unfold resolve
  dsimp only
  rw [requireValid_eq_ok_iff.mpr hvalid, hpasses]
  rfl

/-- A valid definition whose tags match becomes the suite of its references. -/
theorem resolve_of_match (hvalid : validate .testSuite definition (some name) = .ok ()) {filter : Option Text}
    (hmatch : TagFilter.Matches filter (definition.field "tags").items?) :
    resolve x read definition name originalFile filter = (do return some (complete definition name originalFile
      (← Run.collect (resolveReference x read) (TestCase.listField definition "test-cases")))) := by
  obtain ⟨passed, hpasses, hpassed⟩ := TagFilter.passes_of_valid (by decide) hvalid filter
  obtain rfl : passed = true := hpassed.mpr hmatch
  unfold resolve
  dsimp only
  rw [requireValid_eq_ok_iff.mpr hvalid, hpasses]
  rfl

/-- No valid definition is left out without a filter. -/
theorem resolve_none_ne (hvalid : validate .testSuite definition (some name) = .ok ()) :
    (resolve x read definition name originalFile none).outcome ≠ .ok none := by
  rw [resolve_of_match hvalid (TagFilter.matches_none _)]
  cases h : (Run.collect (resolveReference x read) (TestCase.listField definition "test-cases")).outcome with
  | ok items => simp [Run.bind_of_ok h]
  | error failure => simp [Run.bind_of_error h]

/-- Test suites are only selected. -/
theorem onlySelects (hplain : definition.isPlain = true) :
    OnlySelects .testSuite definition name (fun e => fail name originalFile e.message e.message)
      (resolve x read definition name originalFile) :=
  onlySelects_of hplain (by simp [fail_eq])
    (fun filter e h => resolve_of_invalid h filter)
    (fun filter hvalid hmatch => by
      rw [resolve_of_match hvalid hmatch, resolve_of_match hvalid (TagFilter.matches_none _)])
    resolve_none_ne
    (fun filter hvalid hmismatch => resolve_of_mismatch hvalid hmismatch)

end TestSuite

section Resolution

variable [Runtime] (x : Expander) (read : CaseReader)

/-- A filter only selects among test cases and among test suites, and the test cases of a suite are the same
under every filter that lets the suite through. -/
theorem resolve_only_selects {definition : Value} (hplain : definition.isPlain = true)
    (name originalFile : Text) :
    OnlySelects .testCase definition name (fun e => TestCase.fail name originalFile e.message e.message)
      (TestCase.resolve x definition name originalFile) ∧
    OnlySelects .testSuite definition name (fun e => TestSuite.fail name originalFile e.message e.message)
      (TestSuite.resolve x read definition name originalFile) ∧
    ∀ first second suite other,
      (TestSuite.resolve x read definition name originalFile first).outcome = .ok (some suite) →
      (TestSuite.resolve x read definition name originalFile second).outcome = .ok (some other) →
      suite.testCases = other.testCases := by
  have hsuite := @TestSuite.onlySelects x read definition name originalFile _ hplain
  refine ⟨TestCase.onlySelects hplain, hsuite, fun first second suite other hfirst hsecond => ?_⟩
  have hsame : TestSuite.resolve x read definition name originalFile first =
      TestSuite.resolve x read definition name originalFile second :=
    (hsuite.selected first (by simp [hfirst])).trans (hsuite.selected second (by simp [hsecond])).symm
  have hequal : Except.ok (some suite) = Except.ok (some other) := hfirst.symm.trans (hsame ▸ hsecond)
  rw [Option.some.inj (Except.ok.inj hequal)]

end Resolution

section Tagged

attribute [local instance] Runtime.plain

/-- A suite that refers to a file with a test case and to one that is missing: under a filter for another tag it is
left out and nothing is reported, and under one that lets it through it is what it is without, test case included.
-/
theorem resolve_only_selects_tagged :
    let x : Expander := ⟨[], [], some 10⟩
    let read : CaseReader := fun path =>
      if path = "a.yml" then .ok ("/p/a.yml", "\x7b\"steps\": [\"open\"]\x7d") else .error (.file (.notFound path))
    let references : Value := .list [.text "a.yml", .map [(.text "path", .text "gone.yml")]]
    let definition : Value := .map [(.text "tags", .list [.text "smoke", .int 7]), (.text "test-cases", references)]
    let resolve (filter : Text) := TestSuite.resolve x read definition "t.yml" [] filter
    let steps (filter : Text) : Except Failure (Option (List (List Text))) :=
      (resolve filter).outcome.map (Option.map fun suite => suite.testCases.map (·.steps))
    let opened : List (List Text) := [["open"]]
    definition.isPlain = true ∧
    ((steps "smoke").toOption = some (some opened) ∧ (steps "slow | smoke").toOption = some (some opened) ∧
      resolve "slow | smoke" = TestSuite.resolve x read definition "t.yml" [] none) ∧
    (steps "slow, smoke").toOption = some none ∧ resolve "slow, smoke" = pure none := by
  intro x read references definition resolve steps opened
  have hsmoke : (steps "smoke").toOption = some (some opened) := by decide +kernel
  have hslow : (steps "slow | smoke").toOption = some (some opened) := by decide +kernel
  have hboth : (steps "slow, smoke").toOption = some none := by decide +kernel
  obtain ⟨-, honly, -⟩ := @resolve_only_selects _ x read definition rfl "t.yml" []
  refine ⟨rfl, ⟨hsmoke, hslow, honly.selected _ fun hleft => ?_⟩, hboth, ?_⟩
  · simp [steps, resolve, hleft, Except.map, Except.toOption] at hslow
  · have hleft : (resolve "slow, smoke").outcome = .ok none := by
      cases houtcome : (resolve "slow, smoke").outcome with
      | error e => simp [steps, houtcome, Except.map, Except.toOption] at hboth
      | ok found => cases found <;> simp_all [steps, Except.map, Except.toOption]
    exact Run.ext (honly.silent _ hleft) hleft

end Tagged

/-- An integer with too many digits is no valid definition, and instead of being reported it ends the run,
whatever the filter. -/
theorem invalid_integer_not_reported :
    let x : Expander := ⟨[], [], some 10⟩
    let definition : Value := .int (Int.pow 10 Number.digitLimit)
    definition.isPlain = true ∧ (∃ e, validate .testCase definition (some "t.yml") = .error e) ∧
    ∀ filter, TestCase.resolve x definition "t.yml" [] filter = Run.fail (.write .tooManyDigits) := by
  intro x definition
  have hkind : Check.kinds [.mapping] ⟨[], []⟩ definition =
      [⟨.kind definition.literal [.mapping], [], [], Number.isWritable (Int.pow 10 Number.digitLimit)⟩] := rfl
  have hfound : ⟨.kind definition.literal [.mapping], [], [], false⟩ ∈ problems .testCase definition := by
    rw [problems, (List.mergeSort_perm _ _).mem_iff]
    exact List.mem_flatMap.mpr ⟨_, List.mem_cons_self, by rw [hkind, Number.isWritable_limit]; simp⟩
  have hunwritable : (problems .testCase definition).all Problem.writable ≠ true :=
    fun h => absurd (List.all_eq_true.mp h _ hfound) (by simp)
  cases hvalid : validate .testCase definition (some "t.yml") with
  | ok => exact absurd (problems_eq_nil_iff.mpr (validate_eq_ok_iff.mp hvalid)) (List.ne_nil_of_mem hfound)
  | error e =>
    exact ⟨rfl, ⟨e, rfl⟩, fun filter => (TestCase.resolve_of_invalid hvalid filter).trans (if_neg hunwritable)⟩

end TestPlan
