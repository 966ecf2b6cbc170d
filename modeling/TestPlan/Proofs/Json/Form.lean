import Mathlib.Tactic.MkIffOfInductiveProp
import TestPlan.Proofs.StepText
import TestPlan.Report

/-!
# Which values have a JSON form

A value has a JSON form exactly if no container in it contains itself, no key in it is a date or bytes, and no
integer in it is too long (`Value.json_eq_ok_iff`). For lists and mappings that comes down to their parts. So a
report has a JSON form exactly if all the values have one that it copies from definitions as they are, and its
counts can be written (`Report.json_eq_ok_iff`); everything else in it is text.
-/

namespace TestPlan

namespace Value

/-- A value has a JSON form. -/
structure HasJson (v : Value) : Prop where
  /-- no container in it contains itself -/
  acyclic : v.spread.isPlain = true
  /-- no key of a mapping in it is a date or bytes -/
  named : v.spread.namesKeys true = true
  /-- no integer in it is too long -/
  writable : v.isWritable = true

/-- A value has a JSON form exactly if what it spreads to is ready to be written. -/
theorem hasJson_iff_isReady {v : Value} : v.HasJson ↔ v.spread.IsReady True :=
  ⟨fun h => ⟨h.acyclic, h.named, fun _ => h.writable⟩, fun h => ⟨h.plain, h.named, h.written trivial⟩⟩

/-- A list is ready to be written exactly if its items are. -/
theorem isReady_list {vs : List Value} : (Value.list vs).IsReady True ↔ ∀ v ∈ vs, v.IsReady True := by
  constructor
  · intro h v hv
    exact ⟨arePlain_iff.mp h.plain v hv, itemsNameKeys_iff.mp h.named v hv,
      fun _ => treesWritable_iff.mp (h.written trivial) v hv⟩
  · intro h
    exact ⟨arePlain_iff.mpr fun v hv => (h v hv).plain, itemsNameKeys_iff.mpr fun v hv => (h v hv).named,
      fun _ => treesWritable_iff.mpr fun v hv => (h v hv).written trivial⟩

/-- A mapping is ready to be written exactly if its keys can be names and its values are ready. -/
theorem isReady_map {es : Entries Value} : (Value.map es).IsReady True ↔
    ∀ e ∈ es, (e.1.isNamed = true ∧ e.1.isWritable = true) ∧ e.2.IsReady True := by
  constructor
  · intro h e he
    have hnamed := entriesNameKeys_iff.mp h.named e he
    have hwritable := entriesWritable_iff.mp (h.written trivial) e he
    exact ⟨⟨hnamed.1, hwritable.1⟩, entriesPlain_iff.mp h.plain e he, hnamed.2, fun _ => hwritable.2⟩
  · intro h
    exact ⟨entriesPlain_iff.mpr fun e he => (h e he).2.plain,
      entriesNameKeys_iff.mpr fun e he => ⟨(h e he).1.1, (h e he).2.named⟩,
      fun _ => entriesWritable_iff.mpr fun e he => ⟨(h e he).1.2, (h e he).2.written trivial⟩⟩

/-- A value has a JSON text in a layout exactly if it has a JSON form. -/
theorem json_eq_ok_iff {layout : JsonLayout} {v : Value} :
    (∃ text, v.json layout = .ok text) ↔ v.HasJson := by
  have hnone := (obstacles_tally layout v.spread).eq_nil_iff
  rw [json, (treeJson_stopsAt layout 0 v.spread).exists_eq_ok_iff, hnone]
  exact ⟨fun ⟨hplain, hnamed, hwritable⟩ => ⟨hplain, hnamed, hwritable⟩,
    fun h => ⟨h.acyclic, h.named, h.writable⟩⟩

/-- A list has a JSON form exactly if its items have. -/
@[simp] theorem hasJson_list {vs : List Value} : (Value.list vs).HasJson ↔ ∀ v ∈ vs, v.HasJson := by
  simp only [hasJson_iff_isReady, spread, spreadList_eq_map, isReady_list, List.forall_mem_map]

/-- A mapping has a JSON form exactly if its keys are named and writable, and its values have one. -/
theorem hasJson_map {es : Entries Value} : (Value.map es).HasJson ↔
    ∀ e ∈ es, (e.1.isNamed = true ∧ e.1.isWritable = true) ∧ e.2.HasJson := by
  simp only [hasJson_iff_isReady, spread, spreadEntries_eq_map, isReady_map, List.forall_mem_map]

/-- Texts have a JSON form. -/
@[simp] theorem hasJson_text (text : Text) : (Value.text text).HasJson := ⟨rfl, rfl, rfl⟩

/-- The null has a JSON form. -/
@[simp] theorem hasJson_null : Value.null.HasJson := ⟨rfl, rfl, rfl⟩

/-- A count has a JSON form exactly if it can be written. -/
@[simp] theorem hasJson_count {n : Nat} : (Value.count n).HasJson ↔ Number.isWritable n = true :=
  ⟨fun h => h.writable, fun h => ⟨rfl, rfl, h⟩⟩

/-- Lists of texts have a JSON form. -/
@[simp] theorem hasJson_texts (texts : List Text) : (Value.texts texts).HasJson := by
  simp [Value.texts]

/-- A mapping with texts as keys has a JSON form exactly if its values have. -/
@[simp] theorem hasJson_record {fields : List (String × Value)} :
    (Value.record fields).HasJson ↔ ∀ field ∈ fields, field.2.HasJson := by
  rw [record, hasJson_map, List.forall_mem_map]
  exact ⟨fun h field hfield => (h field hfield).2, fun h field hfield => ⟨⟨rfl, rfl⟩, h field hfield⟩⟩

end Value

namespace TestCase

/-- The values that a test case copies from its definition as they are. -/
def copied (case : TestCase) : List Value := case.tags ++ case.rawSteps

/-- A test case has a JSON form exactly if what it copies has one and its steps can be counted. -/
theorem hasJson_value_iff (case : TestCase) : case.value.HasJson ↔
    (∀ v ∈ case.copied, v.HasJson) ∧ Number.isWritable case.stepCount = true := by
  rw [value, Value.hasJson_record]
  simp only [copied, List.forall_mem_append, List.forall_mem_cons, List.forall_mem_map, Value.hasJson_text,
    Value.hasJson_texts, Value.hasJson_list, Value.hasJson_count, List.not_mem_nil, IsEmpty.forall_iff,
    implies_true, true_and, and_true]
  exact ⟨fun ⟨htags, hcount, hsteps⟩ => ⟨⟨htags, hsteps⟩, hcount⟩,
    fun ⟨⟨htags, hsteps⟩, hcount⟩ => ⟨htags, hcount, hsteps⟩⟩

end TestCase

/-- A reference that could not be followed has a JSON form exactly if the reference has. -/
theorem SuiteError.hasJson_value_iff (e : SuiteError) : e.value.HasJson ↔ e.testCase.HasJson := by
  simp [value]

namespace TestSuite

/-- The values that a test suite copies from definitions as they are. -/
def copied (suite : TestSuite) : List Value :=
  suite.tags ++ suite.preActions ++ suite.postActions ++ suite.testCases.flatMap TestCase.copied ++
    suite.errors.map (·.testCase)

/-- All counts in a test suite. -/
def counts (suite : TestSuite) : List Nat := suite.testCases.map TestCase.stepCount ++ suite.summary.map (·.2)

/-- A test suite has a JSON form exactly if what it copies has one and its counts can be written. -/
theorem hasJson_value_iff (suite : TestSuite) : suite.value.HasJson ↔
    (∀ v ∈ suite.copied, v.HasJson) ∧ ∀ n ∈ suite.counts, Number.isWritable n = true := by
  rw [value, Value.hasJson_record]
  simp only [copied, counts, List.forall_mem_append, List.forall_mem_cons, List.forall_mem_map,
    List.forall_mem_flatMap, Value.hasJson_text, Value.hasJson_list, Value.hasJson_record, Value.hasJson_count,
    SuiteError.hasJson_value_iff, TestCase.hasJson_value_iff, forall_and, List.not_mem_nil, IsEmpty.forall_iff,
    implies_true, true_and, and_true]
  exact ⟨fun ⟨htags, hpre, hpost, ⟨hcases, hsteps⟩, herrors, hsummary⟩ =>
      ⟨⟨⟨⟨⟨htags, hpre⟩, hpost⟩, hcases⟩, herrors⟩, hsteps, hsummary⟩,
    fun ⟨⟨⟨⟨⟨htags, hpre⟩, hpost⟩, hcases⟩, herrors⟩, hsteps, hsummary⟩ =>
      ⟨htags, hpre, hpost, ⟨hcases, hsteps⟩, herrors, hsummary⟩⟩

end TestSuite

namespace Report

/-- The values that a report copies from definitions as they are. -/
def copied (report : Report) : List Value :=
  match report.results with
  | .cases cases => cases.flatMap TestCase.copied
  | .suites suites => suites.flatMap TestSuite.copied

/-- The counts in the results of a report. -/
def resultCounts (report : Report) : List Nat :=
  match report.results with
  | .cases cases => cases.map TestCase.stepCount
  | .suites suites => suites.flatMap TestSuite.counts

/-- All counts in a report. -/
def counts (report : Report) : List Nat := report.resultCounts ++ report.summary.map (·.2)

/-- A report can be written: everything in it that is no text has a JSON form. -/
@[mk_iff] structure IsWritable (report : Report) : Prop where
  copied : ∀ v ∈ report.copied, v.HasJson
  counts : ∀ n ∈ report.counts, Number.isWritable n = true

/-- The environment of a project is a text or a null, which have a JSON form. -/
theorem hasJson_environmentValue (config : ProjectConfig) : config.environmentValue.HasJson := by
  unfold ProjectConfig.environmentValue
  cases config.environment <;> simp

/-- The variables of a profile have a JSON form, as they are texts. -/
theorem hasJson_entries (profile : EnvProfile) : (Value.map profile.entries).HasJson := by
  rw [EnvProfile.entries, Value.hasJson_map, List.forall_mem_map]
  exact fun assignment _ => ⟨⟨rfl, rfl⟩, Value.hasJson_text _⟩

/-- The results of a report have a JSON form exactly if what they copy has one and their counts can be
written. -/
theorem hasJson_resultsField_iff (report : Report) : report.resultsField.2.HasJson ↔
    (∀ v ∈ report.copied, v.HasJson) ∧ ∀ n ∈ report.resultCounts, Number.isWritable n = true := by
  unfold resultsField copied resultCounts
  cases report.results with
  | cases cases =>
    simp only [Value.hasJson_list, List.forall_mem_map, List.forall_mem_flatMap, TestCase.hasJson_value_iff,
      forall_and]
  | suites suites =>
    simp only [Value.hasJson_list, List.forall_mem_map, List.forall_mem_flatMap, TestSuite.hasJson_value_iff,
      forall_and]

/-- A report has a JSON form exactly if it can be written. -/
theorem hasJson_value_iff (report : Report) : report.value.HasJson ↔ report.IsWritable := by
  have htag : (report.project.config.tagFilter.map Value.text).getD Value.null |>.HasJson := by
    cases report.project.config.tagFilter <;> simp
  simp only [isWritable_iff, counts, value, Value.hasJson_record, List.forall_mem_cons, List.forall_mem_append,
    List.forall_mem_map, hasJson_environmentValue, htag, hasJson_entries, Value.hasJson_texts,
    hasJson_resultsField_iff, Value.hasJson_count, List.not_mem_nil, IsEmpty.forall_iff, implies_true, true_and,
    and_true, and_assoc]

/-- A report has a JSON text in a layout exactly if it can be written. -/
theorem json_eq_ok_iff {layout : JsonLayout} {report : Report} :
    (∃ text, report.value.json layout = .ok text) ↔ report.IsWritable := by
  rw [Value.json_eq_ok_iff, hasJson_value_iff]

end Report
end TestPlan
