import TestPlan.Proofs.Isolation.Opening
import TestPlan.Proofs.References

/-!
# Suites among files that change

A suite sees other files only through what its references lead to. When the bytes of one file change, its
references that lead elsewhere contribute what they did, those that lead to the file contribute what the bytes
become, and the suite stays resolved as long as these do (`Project.KeepsReferences`).
-/

namespace TestPlan

namespace TestSuite

variable [Runtime] {x : Expander} {read other : CaseReader} {entry definition : Value}

/-- A reference sees no more of a reader than what it gives for the reference's path. -/
theorem resolveReference_congr (h : ∀ path ∈ pathValue? entry, read path.display = other path.display) :
    resolveReference x read entry = resolveReference x other entry := by
  have hfollow : follow read entry = follow other entry := by
    unfold follow
    rw [normalizeReference_eq]
    cases hpath : pathValue? entry with
    | none => rfl
    | some path =>
      cases hwrite : path.isWritable with
      | false => simp [hwrite, bind, Except.bind]
      | true => simp only [hwrite, if_true, bind, Except.bind, h path hpath]
  rw [resolveReference, resolveReference, hfollow]

/-- A reference to a file contributes what the bytes in it become. -/
theorem resolveReference_of_bytes {path : Value} {bytes : List UInt8} {file : Text}
    (hpath : pathValue? entry = some path) (hwrite : path.isWritable = true)
    (hread : read path.display = (Text.ofBytes bytes).map fun text => (file, text)) :
    resolveReference x read entry =
      (do return (← TestCase.resolveBytes x bytes (Path.ofText file).name file none).map .case) := by
  unfold TestCase.resolveBytes
  cases hdecode : Text.decode bytes with
  | ok chars =>
    rw [Text.ofBytes_of_ok hdecode] at hread ⊢
    exact resolveReference_of_read hpath hwrite hread
  | error fault =>
    rw [Text.ofBytes_of_error hdecode] at hread ⊢
    have hfollow : follow read entry = .error (.encoding fault) := by
      simp only [follow, normalizeReference_eq, hpath, hwrite, if_true, bind, Except.bind, hread]
      rfl
    rw [resolveReference, hfollow]
    rfl

/-- A valid suite whose tags match is resolved exactly if every reference contributes, and then it holds what
they contribute. -/
theorem resolve_outcome_eq_ok_iff {name originalFile : Text} {filter : Option Text}
    (hvalid : validate .testSuite definition (some name) = .ok ())
    (hmatch : TagFilter.Matches filter (definition.field "tags").items?) {suite : TestSuite} :
    (resolve x read definition name originalFile filter).outcome = .ok (some suite) ↔
      (∀ entry ∈ TestCase.listField definition "test-cases",
        ∃ item, (resolveReference x read entry).outcome = .ok item) ∧
      suite = complete definition name originalFile ((TestCase.listField definition "test-cases").map fun entry =>
        (resolveReference x read entry).result?) := by
  rw [resolve_of_match hvalid hmatch, Run.collect_bind_outcome_eq_ok_iff]
  simp only [Option.some.injEq]

/-- A suite is told by what its references contribute, so under another reader, for which only some references
may contribute something else, it fails as before or holds what they contribute. -/
theorem resolve_kept {Touched : Value → Prop}
    (hsame : ∀ entry, ¬ Touched entry → resolveReference x other entry = resolveReference x read entry)
    {name originalFile : Text} {filter : Option Text} {suite : TestSuite}
    (h : (resolve x read definition name originalFile filter).outcome = .ok (some suite)) :
    let entries := TestCase.listField definition "test-cases"
    let suiteOf (read : CaseReader) := complete definition name originalFile
      (entries.map fun entry => (resolveReference x read entry).result?)
    suite.error ≠ none ∧ (resolve x other definition name originalFile filter).outcome = .ok (some suite) ∨
    suite = suiteOf read ∧
      ((resolve x other definition name originalFile filter).outcome = .ok (some (suiteOf other)) ↔
        ∀ entry ∈ entries, Touched entry → ∃ item, (resolveReference x other entry).outcome = .ok item) := by
  intro entries suiteOf
  cases hvalid : validate .testSuite definition (some name) with
  | error e =>
    rw [resolve_of_invalid hvalid] at h ⊢
    split at h
    next hwrite =>
      obtain rfl : failed name originalFile e.message = suite := Option.some.inj (Except.ok.inj h)
      rw [if_pos hwrite]
      exact .inl ⟨by simp [failed], rfl⟩
    · simp [Run.fail] at h
  | ok =>
    by_cases hmatch : TagFilter.Matches filter (definition.field "tags").items?
    · obtain ⟨hall, hsuite⟩ := (resolve_outcome_eq_ok_iff hvalid hmatch).mp h
      refine .inr ⟨hsuite, ?_⟩
      rw [resolve_outcome_eq_ok_iff hvalid hmatch, and_iff_left rfl]
      refine ⟨fun h entry hentry _ => h entry hentry, fun h entry hentry => ?_⟩
      by_cases htouched : Touched entry
      · exact h entry hentry htouched
      · rw [hsame entry htouched]
        exact hall entry hentry
    · rw [resolve_of_mismatch hvalid hmatch] at h
      simp at h

end TestSuite

namespace Project

variable {p : Project} {disk other changed : Disk} {file : Path} {names : List FileName} {bytes : List UInt8}

/-- A test case is read alike from disks that answer alike about its path. -/
theorem readCase_congr {reference : Text} (h : disk.Alike other (p.config.root.below reference)) :
    p.readCase disk reference = p.readCase other reference := by
  rw [readCase, readCase, h.isFile]
  cases hfile : other.isFile (p.config.root.below reference) with
  | error e => rfl
  | ok there =>
    cases there with
    | false => rfl
    | true => rw [h.readText (h.isFile.trans hfile)]

/-- A test case is read from the bytes in its file. -/
theorem readCase_of_bytes {reference : Text} (hfile : disk.isFile (p.config.root.below reference) = .ok true)
    (hbytes : disk.readBytes (p.config.root.below reference) = .ok bytes) :
    p.readCase disk reference = (Text.ofBytes bytes).map fun text =>
      ((p.config.root.below reference).text, text) := by
  rw [readCase, hfile, Disk.readText_of_readBytes hbytes]
  cases Text.ofBytes bytes <;> rfl

/-- An entry of a suite names a path that leads to a file. -/
def LeadsTo (p : Project) (disk : Disk) (file : Path) (entry : Value) : Prop :=
  ∃ path ∈ TestSuite.pathValue? entry, disk.find (p.config.root.below path.display) = disk.find file

section References

variable [Runtime]

/-- How suites fare when the bytes of a file change. -/
structure KeepsReferences (p : Project) (disk changed : Disk) (file : Path) (bytes : List UInt8) : Prop where
  /-- what an entry that leads elsewhere contributes, and what is reported about it, stays -/
  elsewhere : ∀ entry, ¬ p.LeadsTo disk file entry →
    TestSuite.resolveReference p.expander (p.readCase changed) entry =
      TestSuite.resolveReference p.expander (p.readCase disk) entry
  /-- an entry that leads to the file and contributed still contributes a test case, a failed one if the bytes
  are refused, or it ends the run -/
  referring : TestCase.HoldsPlain p.expander bytes → ∀ entry item, ∀ path ∈ TestSuite.pathValue? entry,
    disk.find (p.config.root.below path.display) = disk.find file →
    (TestSuite.resolveReference p.expander (p.readCase disk) entry).outcome = .ok item →
    let originalFile := (p.config.root.below path.display).text
    (∃ case, (TestSuite.resolveReference p.expander (p.readCase changed) entry).outcome = .ok (some (.case case)) ∧
      ((∃ error ≠ [], case = .failed (Path.ofText originalFile).name originalFile error) ↔
        TestCase.IsRefused p.expander none bytes)) ∨
    ∃ e, (TestSuite.resolveReference p.expander (p.readCase changed) entry).outcome = .error e ∧
      TestCase.Ends p.expander bytes e
  /-- a suite in another file stays as it is if it has failed; otherwise it holds what its entries contribute,
  and it is resolved as long as those that lead to the file do contribute -/
  suites : ∀ suiteFile suite, disk.isFile suiteFile = .ok true → disk.find suiteFile ≠ disk.find file →
    (p.resolveSuite disk suiteFile).outcome = .ok (some suite) →
    suite.error ≠ none ∧ (p.resolveSuite changed suiteFile).outcome = .ok (some suite) ∨
    ∃ text definition, disk.readText suiteFile = .ok text ∧ Yaml.read text = .ok definition ∧
      let entries := TestCase.listField definition "test-cases"
      let suiteOn (disk : Disk) := TestSuite.complete definition suiteFile.name suiteFile.text
        (entries.map fun entry => (TestSuite.resolveReference p.expander (p.readCase disk) entry).result?)
      suite = suiteOn disk ∧
      ((p.resolveSuite changed suiteFile).outcome = .ok (some (suiteOn changed)) ↔
        ∀ entry ∈ entries, p.LeadsTo disk file entry →
          ∃ item, (TestSuite.resolveReference p.expander (p.readCase changed) entry).outcome = .ok item)

section Changed

variable (hfind : disk.find file = .ok names) (hwritten : Disk.IsWritten disk changed names bytes)
include hfind hwritten

/-- What an entry contributes that leads elsewhere stays. -/
theorem resolveReference_elsewhere {entry : Value} (h : ¬ p.LeadsTo disk file entry) :
    TestSuite.resolveReference p.expander (p.readCase changed) entry =
      TestSuite.resolveReference p.expander (p.readCase disk) entry :=
  TestSuite.resolveReference_congr fun path hpath => readCase_congr <| Disk.Alike.symm <|
    hwritten.alike fun hsame => h ⟨path, hpath, hsame.trans hfind.symm⟩

omit [Runtime] in
/-- A path that leads to the file leads to the bytes that it holds now. -/
theorem readBytes_of_isWritten {path : Path} (h : disk.find path = disk.find file) :
    changed.isFile path = .ok true ∧ changed.readBytes path = .ok bytes := by
  have hpath : changed.find path = .ok names := (hwritten.find path).trans (h.trans hfind)
  have hlook : changed.look names = some (.file bytes) := (hwritten.look names).trans (if_pos rfl)
  exact ⟨Disk.isFile_of_find_ok hpath hlook, Disk.readBytes_of_find_ok hpath hlook⟩

/-- An entry that leads to the file and contributed contributes still, unless the bytes end the run. -/
theorem resolveReference_referring {d : Int} (hd : p.config.maxDepth = some d) (htable : p.libraries.IsPlain)
    (hplain : TestCase.HoldsPlain p.expander bytes) {entry path : Value} {item : Option TestSuite.Item}
    (hpath : TestSuite.pathValue? entry = some path)
    (hleads : disk.find (p.config.root.below path.display) = disk.find file)
    (hitem : (TestSuite.resolveReference p.expander (p.readCase disk) entry).outcome = .ok item) :
    let originalFile := (p.config.root.below path.display).text
    (∃ case, (TestSuite.resolveReference p.expander (p.readCase changed) entry).outcome = .ok (some (.case case)) ∧
      ((∃ error ≠ [], case = .failed (Path.ofText originalFile).name originalFile error) ↔
        TestCase.IsRefused p.expander none bytes)) ∨
    ∃ e, (TestSuite.resolveReference p.expander (p.readCase changed) entry).outcome = .error e ∧
      TestCase.Ends p.expander bytes e := by
  intro originalFile
  obtain ⟨hfile, hbytes⟩ := readBytes_of_isWritten hfind hwritten hleads
  -- A path that cannot be written would have ended the run before the bytes changed.
  have hwrite : path.isWritable = true := by
    by_contra hlong
    rw [TestSuite.resolveReference_of_long hpath (Bool.eq_false_iff.mpr hlong)] at hitem
    simp [Run.fail] at hitem
  rw [TestSuite.resolveReference_of_bytes hpath hwrite (readCase_of_bytes hfile hbytes)]
  rcases TestCase.resolveBytes_answers hd htable hplain (Path.ofText originalFile).name originalFile none with
    ⟨found, hfound⟩ | ⟨e, he, hends⟩
  · cases found with
    | none => exact absurd hfound (TestCase.resolveBytes_none_ne _ _ _ _)
    | some case =>
      rw [Run.bind_of_ok hfound]
      exact .inl ⟨case, rfl, by simpa using TestCase.failed_iff_of_resolveBytes hfound⟩
  · rw [Run.bind_of_error he]
    exact .inr ⟨e, rfl, hends⟩

end Changed

/-- A suite file is resolved from its text. -/
theorem resolveSuite_of_text {suiteFile : Path} {text : Text} (h : disk.readText suiteFile = .ok text) :
    p.resolveSuite disk suiteFile = TestSuite.resolveText p.expander (p.readCase disk) text suiteFile.name
      suiteFile.text p.config.tagFilter := by
  rw [resolveSuite, h]

/-- A suite that can be resolved has a text. -/
theorem exists_text_of_resolveSuite {suiteFile : Path} {suite : TestSuite}
    (hfile : disk.isFile suiteFile = .ok true)
    (h : (p.resolveSuite disk suiteFile).outcome = .ok (some suite)) :
    ∃ text, disk.readText suiteFile = .ok text := by
  obtain ⟨bytes, hbytes⟩ := Disk.exists_readBytes hfile
  have htext := Disk.readText_of_readBytes hbytes
  cases hdecode : Text.decode bytes with
  | ok chars => exact ⟨_, htext.trans (Text.ofBytes_of_ok hdecode)⟩
  | error fault =>
    rw [Text.ofBytes_of_error hdecode] at htext
    rw [resolveSuite, htext] at h
    simp [Run.fail] at h

/-- Suites keep apart from a file whose bytes change. -/
theorem keepsReferences {d : Int} (hd : p.config.maxDepth = some d) (htable : p.libraries.IsPlain)
    (hfind : disk.find file = .ok names) (hwritten : Disk.IsWritten disk changed names bytes) :
    p.KeepsReferences disk changed file bytes where
  elsewhere _ h := resolveReference_elsewhere hfind hwritten h
  referring hplain _ _ _ hpath hleads hitem :=
    resolveReference_referring hfind hwritten hd htable hplain hpath hleads hitem
  suites suiteFile suite hfile hne hsuite := by
    obtain ⟨text, htext⟩ := exists_text_of_resolveSuite hfile hsuite
    have halike : disk.Alike changed suiteFile := hwritten.alike fun hsame => hne (hsame.trans hfind.symm)
    have hchanged : changed.readText suiteFile = .ok text := (halike.readText hfile).symm.trans htext
    rw [resolveSuite_of_text htext] at hsuite
    rw [resolveSuite_of_text hchanged]
    unfold TestSuite.resolveText at hsuite ⊢
    cases hread : Yaml.read text with
    | error e =>
      cases e with
      | malformed =>
        simp only [hread] at hsuite ⊢
        obtain rfl := Option.some.inj (Except.ok.inj hsuite)
        exact .inl ⟨by simp [TestSuite.failed], rfl⟩
      | scalar fault => simp [hread, Run.fail] at hsuite
    | ok definition =>
      simp only [hread] at hsuite ⊢
      exact (TestSuite.resolve_kept (fun _ => resolveReference_elsewhere hfind hwritten) hsuite).imp_right
        fun hkept => ⟨text, definition, htext, hread, hkept⟩

end References

end Project
end TestPlan
