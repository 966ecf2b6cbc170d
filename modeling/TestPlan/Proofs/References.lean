import TestPlan.Proofs.Resolution
import TestPlan.Report

/-!
# References of a suite

Every entry of a suite's list of test cases contributes one item. An entry that names a path where a test
case can be read (`reached?`) contributes the test case that resolving it gives, and every other entry
contributes the reason why it has none. What an entry contributes is told by the entry alone, so both lists
of a suite keep the order of the entries and together have as many items (`TestSuite.resolve_keeps_entries`).
-/

namespace TestPlan

namespace TestSuite

/-- The value that names the path of an entry: the entry itself if it is a text, and else its field for the
path, if that is there. -/
def pathValue? : Value → Option Value
  | .scalar (.text path) => some (.text path)
  | entry => if (entry.field "path").truthy then some (entry.field "path") else none

/-- The file and the text that an entry of a suite leads to, if it names a path that can be read. -/
def reached? (read : CaseReader) (entry : Value) : Option (Text × Text) :=
  (pathValue? entry).bind fun path => (read path.display).toOption

/-- What is said about an entry that leads to no text. -/
def refusal (read : CaseReader) (entry : Value) : Text :=
  match pathValue? entry with
  | none => "Invalid test case reference format"
  | some path =>
    match read path.display with
    | .error (.file (.notFound _)) => "Test case file not found: " ++ path.display
    | .error failure => "Cannot read test case " ++ path.display ++ ": " ++ failure.message
    | .ok _ => []

/-- What becomes of the test case in a file that a suite refers to. -/
def caseOutcome [Runtime] (x : Expander) (found : Text × Text) : Except Failure (Option TestCase) :=
  (TestCase.resolveText x found.2 (Path.ofText found.1).name found.1 none).outcome

/-- A path is what the value that names it shows, if that can be written. -/
theorem normalizeReference_eq (entry : Value) : normalizeReference entry =
    match pathValue? entry with
    | none => .error (.definition .reference)
    | some path => if path.isWritable then .ok path.display else .error (.write .tooManyDigits) := by
  unfold normalizeReference pathValue?
  split
  · rfl
  · simp only [Value.write]
    by_cases htruthy : (entry.field "path").truthy = true
    · cases hwrite : (entry.field "path").isWritable <;> simp [htruthy, hwrite, Except.mapError]
    · simp [htruthy]

section References

variable [Runtime]

/-- What is expected of an entry: its path leads to a text or to an error of the file system, and the text that it
leads to is malformed or is a document, of its own and without self-reference. -/
structure IsSound (x : Expander) (read : CaseReader) (entry : Value) : Prop where
  answers : ∀ path ∈ pathValue? entry,
    (∃ found, read path.display = .ok found) ∨ ∃ e, read path.display = .error (.file e)
  parses : ∀ found ∈ reached? read entry, ∀ fault, Yaml.read found.2 ≠ .error (.scalar fault)
  plain : ∀ found ∈ reached? read entry, ∀ definition, Yaml.read found.2 = .ok definition →
    definition.isPlain = true
  named : ∀ found ∈ reached? read entry, ∀ definition, Yaml.read found.2 = .ok definition →
    x.NamesKeys (TestCase.listField definition "steps")

/-- Every integer that an entry brings can be written, in its path and in the test case that it leads to. -/
structure IsWritable (read : CaseReader) (entry : Value) : Prop where
  path : ∀ path ∈ pathValue? entry, path.isWritable = true
  case : ∀ found ∈ reached? read entry, ∀ definition, Yaml.read found.2 = .ok definition →
    definition.treeWritable = true

variable {x : Expander} {d : Int} {read : CaseReader} {entry : Value}

/-- An entry that leads to a text contributes what the test case in it becomes. -/
theorem resolveReference_of_read {path : Value} {file text : Text} (hpath : pathValue? entry = some path)
    (hwrite : path.isWritable = true) (hread : read path.display = .ok (file, text)) :
    resolveReference x read entry =
      (do return (← TestCase.resolveText x text (Path.ofText file).name file none).map .case) := by
  have hfollow : follow read entry = .ok (file, text) := by
    simp only [follow, normalizeReference_eq, hpath, hwrite, if_true, bind, Except.bind, hread]
    rfl
  rw [resolveReference, hfollow]

/-- An entry that names no path contributes an error. -/
theorem resolveReference_of_pathless (hpath : pathValue? entry = none) :
    resolveReference x read entry = pure (some (.error ⟨entry, refusal read entry⟩)) := by
  have hfollow : follow read entry = .error (.definition .reference) := by
    simp only [follow, normalizeReference_eq, hpath, bind, Except.bind]
  simp only [resolveReference, hfollow, refusal, hpath]
  rfl

/-- An entry whose path cannot be read contributes an error. -/
theorem resolveReference_of_unread {path : Value} {e : FileError} (hpath : pathValue? entry = some path)
    (hwrite : path.isWritable = true) (hread : read path.display = .error (.file e)) :
    resolveReference x read entry = pure (some (.error ⟨entry, refusal read entry⟩)) := by
  cases e with
  | notFound missing =>
    have hfollow : follow read entry = .error (.definition (.missingCase path.display)) := by
      simp only [follow, normalizeReference_eq, hpath, hwrite, if_true, bind, Except.bind, hread]
      rfl
    simp only [resolveReference, hfollow, refusal, hpath, hread]
    rfl
  | _ =>
    simp only [resolveReference, follow, normalizeReference_eq, refusal, hpath, hwrite, if_true, bind,
      Except.bind, hread]
    rfl

/-- A path that cannot be written ends the run. -/
theorem resolveReference_of_long {path : Value} (hpath : pathValue? entry = some path)
    (hwrite : path.isWritable = false) :
    resolveReference x read entry = Run.fail (.write .tooManyDigits) := by
  have hfollow : follow read entry = .error (.write .tooManyDigits) := by
    simp only [follow, normalizeReference_eq, hpath, hwrite, bind, Except.bind]
    rfl
  rw [resolveReference, hfollow]

/-- What an entry of a suite contributes to it. -/
inductive Contributes (x : Expander) (read : CaseReader) (entry : Value) : Item → Prop
  /-- the test case that resolving the text gives -/
  | case {found : Text × Text} {case : TestCase} (hread : reached? read entry = some found)
      (hcase : caseOutcome x found = .ok (some case)) : Contributes x read entry (.case case)
  /-- the entry itself with the reason why it leads to no text -/
  | error (hread : reached? read entry = none) :
      Contributes x read entry (.error ⟨entry, refusal read entry⟩)

/-- Every entry contributes an item, unless an integer is too long to be written. -/
theorem resolveReference_cases (hd : x.maxDepth = some d) (htable : x.libraries.IsPlain)
    (hsound : IsSound x read entry) :
    (∃ item, (resolveReference x read entry).outcome = .ok (some item) ∧ Contributes x read entry item) ∨
    (∃ e, (resolveReference x read entry).outcome = .error e ∧ e.IsDigitLimit) ∧
      ¬ (x.IsWritable ∧ IsWritable read entry) := by
  cases hpath : pathValue? entry with
  | none =>
    rw [resolveReference_of_pathless hpath]
    exact .inl ⟨_, rfl, .error (by rw [reached?, hpath]; rfl)⟩
  | some path =>
    cases hwrite : path.isWritable with
    | false =>
      rw [resolveReference_of_long hpath hwrite]
      exact .inr ⟨⟨_, rfl, .inl rfl⟩, fun h => by simp [h.2.path path hpath] at hwrite⟩
    | true =>
      rcases hsound.answers path hpath with ⟨⟨file, text⟩, hread⟩ | ⟨e, hread⟩
      · have hfound : reached? read entry = some (file, text) := by
          rw [reached?, hpath, Option.bind_some, hread]
          rfl
        have hrun := resolveReference_of_read (x := x) hpath hwrite hread
        rcases TestCase.resolveText_answers hd htable (hsound.plain _ hfound) (hsound.named _ hfound)
          (Path.ofText file).name file none with
          ⟨answer, hanswer⟩ | ⟨fault, -, hscalar⟩ | ⟨e, he, hlimit, definition, hdefinition, hlong⟩
        · cases answer with
          | none => exact absurd hanswer (TestCase.resolveText_none_ne _ _ _ _)
          | some case =>
            rw [hrun, Run.bind_of_ok hanswer]
            exact .inl ⟨.case case, rfl, .case hfound hanswer⟩
        · exact absurd hscalar (hsound.parses _ hfound fault)
        · rw [hrun, Run.bind_of_error he]
          exact .inr ⟨⟨e, rfl, hlimit⟩, fun h => hlong ⟨h.2.case _ hfound definition hdefinition, h.1⟩⟩
      · rw [resolveReference_of_unread hpath hwrite hread]
        exact .inl ⟨_, rfl, .error (by rw [reached?, hpath, Option.bind_some, hread]; rfl)⟩

/-- A suite whose entries have all contributed to it, in order. -/
structure KeepsEntries (x : Expander) (read : CaseReader) (entries : List Value) (suite : TestSuite) :
    Prop where
  /-- every entry contributes one item, and there are no others -/
  items : ∃ items, List.Forall₂ (Contributes x read) entries items ∧
    suite.testCases = items.filterMap Item.case? ∧ suite.errors = items.filterMap Item.error?
  /-- the test cases are those of the entries that can be read, in their order -/
  testCases : (suite.testCases.map fun case => .ok (some case)) =
    (entries.filterMap (reached? read)).map (caseOutcome x)
  /-- the errors are those of the other entries, in their order -/
  errors : suite.errors = (entries.filter fun entry => (reached? read entry).isNone).map fun entry =>
    ⟨entry, refusal read entry⟩
  counted : suite.testCases.length + suite.errors.length = entries.length
  summary : suite.summary = [("totalTestCases", suite.testCases.length),
    ("totalSteps", total (suite.testCases.map TestCase.stepCount)), ("totalErrors", suite.errors.length)]

section Items

variable {entries : List Value} {items : List Item} (h : List.Forall₂ (Contributes x read) entries items)
include h

/-- The test cases among the items are, in order, what resolving gives for the entries that reach a text. -/
theorem map_cases_of_contributes : ((items.filterMap Item.case?).map fun case => .ok (some case)) =
    (entries.filterMap (reached? read)).map (caseOutcome x) := by
  induction h with
  | nil => rfl
  | cons hitem _ ih =>
    cases hitem with
    | case hread hcase => simp [Item.case?, hread, hcase, ih]
    | error hread => simp [List.filterMap_cons, Item.case?, hread, ih]

/-- The records among the items are, in order, those of the entries that reach none. -/
theorem errors_of_contributes : items.filterMap Item.error? =
    (entries.filter fun entry => (reached? read entry).isNone).map fun entry =>
      ⟨entry, refusal read entry⟩ := by
  induction h with
  | nil => rfl
  | cons hitem _ ih =>
    cases hitem with
    | case hread => simp [List.filterMap_cons, Item.error?, hread, ih]
    | error hread => simp [Item.error?, hread, ih]

/-- Every item is a test case or a record, and there is one for each entry. -/
theorem length_of_contributes :
    (items.filterMap Item.case?).length + (items.filterMap Item.error?).length = entries.length := by
  induction h with
  | nil => rfl
  | cons hitem _ ih =>
    cases hitem <;> simp [List.filterMap_cons, Item.case?, Item.error?] <;> omega

/-- A suite of the items that entries contribute keeps the entries. -/
theorem KeepsEntries.of_contributes {suite : TestSuite} (herror : suite.error = none)
    (hcases : suite.testCases = items.filterMap Item.case?)
    (herrors : suite.errors = items.filterMap Item.error?) : KeepsEntries x read entries suite where
  items := ⟨items, h, hcases, herrors⟩
  testCases := hcases ▸ map_cases_of_contributes h
  errors := herrors.trans (errors_of_contributes h)
  counted := by rw [hcases, herrors, length_of_contributes h]
  summary := by simp [TestSuite.summary, totalSteps, totalErrors, herror]

end Items

/-- Runs that each end with an item end with items that the entries contribute. -/
theorem forall₂_of_outcomes {entries : List Value} {results : List (Option Item)}
    (hcases : ∀ entry ∈ entries, ∀ result, (resolveReference x read entry).outcome = .ok result →
      ∃ item, result = some item ∧ Contributes x read entry item)
    (h : entries.map (fun entry => (resolveReference x read entry).outcome) = results.map .ok) :
    ∃ items, results = items.map some ∧ List.Forall₂ (Contributes x read) entries items := by
  induction entries generalizing results with
  | nil =>
    obtain rfl : results = [] := by simpa using h.symm
    exact ⟨[], rfl, .nil⟩
  | cons entry rest ih =>
    cases results with
    | nil => simp at h
    | cons result others =>
      rw [List.map_cons, List.map_cons, List.cons.injEq] at h
      obtain ⟨item, rfl, hitem⟩ := hcases entry List.mem_cons_self result h.1
      obtain ⟨items, rfl, hitems⟩ := ih (fun other hother => hcases other (List.mem_cons_of_mem _ hother)) h.2
      exact ⟨item :: items, rfl, .cons hitem hitems⟩

/-- No entry of a valid suite that passes its filter is lost, duplicated or moved: each contributes one item
to the suite, which follows from the entry alone. Only an integer that is too long to be written keeps the
suite from being resolved: one that an entry brings, or one of the expander. -/
theorem resolve_keeps_entries (hd : x.maxDepth = some d) (htable : x.libraries.IsPlain)
    {definition : Value} (hsound : ∀ entry ∈ TestCase.listField definition "test-cases", IsSound x read entry)
    {name : Text} {filter : Option Text} (hvalid : validate .testSuite definition (some name) = .ok ())
    (hmatch : TagFilter.Matches filter (definition.field "tags").items?) (originalFile : Text) :
    let entries := TestCase.listField definition "test-cases"
    let run := resolve x read definition name originalFile filter
    (∃ suite, run.outcome = .ok (some suite) ∧ KeepsEntries x read entries suite) ∨
    (∃ e, run.outcome = .error e ∧ e.IsDigitLimit) ∧
      ¬ (x.IsWritable ∧ ∀ entry ∈ entries, IsWritable read entry) := by
  intro entries run
  have hrun : run = (do return some (complete definition name originalFile
      (← Run.collect (resolveReference x read) entries))) := resolve_of_match hvalid hmatch
  cases hcollect : (Run.collect (resolveReference x read) entries).outcome with
  | ok results =>
    rw [hrun, Run.bind_of_ok hcollect]
    obtain ⟨items, rfl, hitems⟩ := forall₂_of_outcomes (x := x)
      (fun entry hentry result hresult => by
        rcases resolveReference_cases hd htable (hsound entry hentry) with ⟨item, hitem, hcontributes⟩ |
          ⟨⟨e, he, -⟩, -⟩
        · exact ⟨item, Except.ok.inj (hresult.symm.trans hitem), hcontributes⟩
        · simp [hresult] at he)
      (Run.map_outcome_of_collect_eq_ok hcollect)
    exact .inl ⟨_, rfl, .of_contributes hitems rfl List.filterMap_map List.filterMap_map⟩
  | error e =>
    rw [hrun, Run.bind_of_error hcollect]
    obtain ⟨entry, hentry, he⟩ := Run.exists_error_of_collect_eq_error hcollect
    rcases resolveReference_cases hd htable (hsound entry hentry) with ⟨item, hitem, -⟩ |
      ⟨⟨other, hother, hlimit⟩, hlong⟩
    · simp [hitem] at he
    · obtain rfl : other = e := Except.error.inj (hother.symm.trans he)
      exact .inr ⟨⟨other, rfl, hlimit⟩, fun h => hlong ⟨h.1, h.2 entry hentry⟩⟩

/-- An integer that is too long for a path ends the run. -/
theorem resolveReference_of_long_path {n : Int} (hn : Number.isWritable n = false) :
    resolveReference x read (.map [(.text "path", .int n)]) = Run.fail (.write .tooManyDigits) := by
  have hzero : n ≠ 0 := by
    rintro rfl
    exact absurd hn (by simp [Number.isWritable])
  have htruthy : (Value.int n).truthy = true := by simpa [Value.truthy, Value.view, Scalar.truthy] using hzero
  refine resolveReference_of_long ?_ (show (Value.int n).isWritable = false from hn)
  exact if_pos htruthy

end References

section Mixed

attribute [local instance] Runtime.plain

/-- A suite with two files that can be read, one of which is no document, a missing file, an entry that names
no path, and one that names its path in a field. A third file that no entry leads to plays no part, even though
reading it would end in a failure. -/
theorem resolve_keeps_entries_mixed :
    let x : Expander := ⟨[], [], some 10⟩
    let read : CaseReader := fun path =>
      if path = "a.yml" then .ok ("/p/a.yml", "\x7b\x7d")
      else if path = "b.yml" then .ok ("/p/b.yml", "\x7b")
      else if path = "z.yml" then .ok ("/p/z.yml", "2024-13-45")
      else .error (.file (.notFound path))
    let entries : List Value :=
      [.text "a.yml", .text "c.yml", .int 7, .map [(.text "path", .text "b.yml")], .text "a.yml"]
    let definition : Value := .map [(.text "test-cases", .list entries)]
    ((∀ entry ∈ entries, IsSound x read entry) ∧ validate .testSuite definition (some "s.yml") = .ok () ∧
      TagFilter.Matches none (definition.field "tags").items?) ∧
    ∃ suite, (resolve x read definition "s.yml" [] none).outcome = .ok (some suite) ∧
      KeepsEntries x read entries suite ∧ suite.testCases.length = 3 ∧
      suite.errors.map SuiteError.testCase = [.text "c.yml", .int 7] := by
  intro x read entries definition
  have hempty : Yaml.read "\x7b\x7d" = .ok (.map []) := rfl
  have hmalformed : Yaml.read "\x7b" = .error .malformed := rfl
  have htexts : ∀ found ∈ entries.filterMap (reached? read), found.2 = "\x7b\x7d" ∨ found.2 = "\x7b" := by decide
  have hreads {entry : Value} (hentry : entry ∈ entries) {found : Text × Text}
      (hfound : found ∈ reached? read entry) :
      Yaml.read found.2 = .ok (.map []) ∨ Yaml.read found.2 = .error .malformed := by
    rcases htexts found (List.mem_filterMap.mpr ⟨entry, hentry, hfound⟩) with htext | htext
    · exact .inl (htext ▸ hempty)
    · exact .inr (htext ▸ hmalformed)
  have hown {entry own : Value} (hentry : entry ∈ entries) {found : Text × Text}
      (hfound : found ∈ reached? read entry) (hread : Yaml.read found.2 = .ok own) : own = .map [] := by
    rcases hreads hentry hfound with hok | herror
    · exact Except.ok.inj (hread.symm.trans hok)
    · exact absurd (hread.symm.trans herror) nofun
  have hsound : ∀ entry ∈ TestCase.listField definition "test-cases", IsSound x read entry := fun entry hentry => {
    answers := fun path _ => by
      dsimp only [read]
      split_ifs <;> simp
    parses := fun found hfound fault => by
      rcases hreads hentry hfound with hread | hread <;> simp [hread]
    plain := fun found hfound own hread => by
      rw [hown hentry hfound hread]
      rfl
    named := fun found hfound own hread => by
      rw [hown hentry hfound hread]
      exact Expander.namesKeys_of_values (by simp [TestCase.listField, Value.field, Value.field?, Value.items?,
        Value.entries?, Value.view, Entries.find?]) (by simp [x]) }
  have hvalid : validate .testSuite definition (some "s.yml") = .ok () := validate_eq_ok_iff.mpr rfl
  have hmatch : TagFilter.Matches none (definition.field "tags").items? := TagFilter.matches_none _
  have hlimit : Number.isWritable 10 = true := by decide +kernel
  have hpaths : (entries.filterMap pathValue?).all Value.isWritable = true := rfl
  have hwritable : x.IsWritable ∧ ∀ entry ∈ entries, IsWritable read entry := by
    refine ⟨⟨by simp [x], by simp [x, Entries.AllWritable], fun d hd => Option.some.inj hd ▸ hlimit⟩, ?_⟩
    refine fun entry hentry => ⟨fun path hpath => ?_, fun found hfound own hread => ?_⟩
    · exact List.all_eq_true.mp hpaths path (List.mem_filterMap.mpr ⟨entry, hentry, hpath⟩)
    · rw [hown hentry hfound hread]
      rfl
  have hentries : TestCase.listField definition "test-cases" = entries := rfl
  obtain ⟨suite, hsuite, hkeeps⟩ :=
    (resolve_keeps_entries rfl (by simp [x, LibraryTable.IsPlain]) hsound hvalid hmatch []).resolve_right
      fun h => h.2 hwritable
  rw [hentries] at hkeeps
  have hread : (entries.filterMap (reached? read)).length = 3 := rfl
  have hunread : entries.filter (fun entry => (reached? read entry).isNone) = [.text "c.yml", .int 7] := rfl
  refine ⟨⟨hsound, hvalid, hmatch⟩, suite, hsuite, hkeeps, ?_, ?_⟩
  · rw [← hread]
    simpa using congrArg List.length hkeeps.testCases
  · rw [hkeeps.errors, hunread]
    rfl

/-- An entry whose path is an integer with too many digits contributes nothing: it ends the run. -/
theorem resolve_fails_of_long_path :
    let x : Expander := ⟨[], [], some 10⟩
    let read : CaseReader := fun path => .error (.file (.notFound path))
    let entry : Value := .map [(.text "path", .int (Int.pow 10 Number.digitLimit))]
    let definition : Value := .map [(.text "test-cases", .list [entry])]
    (IsSound x read entry ∧ validate .testSuite definition (some "s.yml") = .ok () ∧
      TagFilter.Matches none (definition.field "tags").items?) ∧
    (resolve x read definition "s.yml" [] none).outcome = .error (.write .tooManyDigits) := by
  intro x read entry definition
  have hunread : reached? read entry = none := by
    rw [reached?]
    cases pathValue? entry <;> rfl
  have hsound : IsSound x read entry := {
    answers := fun path _ => .inr ⟨_, rfl⟩
    parses := fun found hfound => by simp [hunread] at hfound
    plain := fun found hfound => by simp [hunread] at hfound
    named := fun found hfound => by simp [hunread] at hfound }
  have hvalid : validate .testSuite definition (some "s.yml") = .ok () := validate_eq_ok_iff.mpr rfl
  have hmatch : TagFilter.Matches none (definition.field "tags").items? := TagFilter.matches_none _
  have hentries : TestCase.listField definition "test-cases" = [entry] := rfl
  have hentry : (Run.collect (resolveReference x read) (TestCase.listField definition "test-cases")).outcome =
      .error (.write .tooManyDigits) := by
    rw [hentries, Run.collect_cons, resolveReference_of_long_path Number.isWritable_limit]
    rfl
  refine ⟨⟨hsound, hvalid, hmatch⟩, ?_⟩
  rw [resolve_of_match hvalid hmatch, Run.bind_of_error hentry]

end Mixed

end TestSuite
end TestPlan
