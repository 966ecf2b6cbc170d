import TestPlan.Proofs.Definition.Library
import TestPlan.Proofs.Definition.Validation
import TestPlan.Project

/-!
# What a library file holds

A document is refused, or a library is built from it, unless an integer is too long to be written where it has to be
(`StepLibrary.ofDocument_outcomes`). So a file that can be read is empty or unusable, or it holds a library, unless
it holds such an integer (`LibraryTable.cases_of_isReadable`).
-/

namespace TestPlan

namespace StepLibrary

variable {name : Text} {document : Value} {library : StepLibrary}

/-- An integer that is too long to be written stands where it has to be: in a part that violates a constraint, or as
the default of a parameter. -/
inductive HasLongInteger (document : Value) : Prop
  | violation {way : List Place} {demand : Demand} {part : Value}
      (h : IsViolated .stepLibrary document way demand part) (hlong : part.isWritable = false) :
      HasLongInteger document
  | default {parameter : Value} (h : DocumentKind.stepLibrary.HasShape document)
      (hparameter : parameter ∈ TestCase.listField document "parameters")
      (hlong : (parameter.field "default").isWritable = false) : HasLongInteger document

/-- With an integer that is too long nothing is built from a document, and without one it is refused or a library
with the given name is built from it. -/
theorem ofDocument_outcomes (name : Text) (document : Value) :
    (HasLongInteger document ∧ ofDocument name document = .error (.write .tooManyDigits)) ∨
    ¬ HasLongInteger document ∧
      ((∃ e, validate .stepLibrary document (some name) = .error e ∧
        ofDocument name document = .error (.definition e)) ∨
        validate .stepLibrary document (some name) = .ok () ∧
          ∃ library, ofDocument name document = .ok library ∧ library.name = name) := by
  by_cases hlong : HasLongInteger document
  · refine .inl ⟨hlong, ?_⟩
    cases hlong with
    | violation hviolated hlong =>
      rw [ofDocument, requireValid_of_long hviolated hlong]
      rfl
    | @default parameter hshape hparameter hlong =>
      rw [ofDocument_of_valid (validate_eq_ok_iff_hasShape.mpr hshape)]
      cases hread : (TestCase.listField document "parameters").mapM Parameter.ofValue with
      | ok parameters =>
        obtain ⟨own, hown⟩ := exists_ok_of_mapM hread hparameter
        cases (Parameter.ofValue_of_long hlong).symm.trans hown
      | error fault =>
        cases fault
        rfl
  · refine .inr ⟨hlong, ?_⟩
    cases hvalid : validate .stepLibrary document (some name) with
    | error e =>
      have hwritable : (problems .stepLibrary document).all Problem.writable = true := by
        refine problems_writable_iff.mpr fun way demand part hviolated => ?_
        by_contra hunwritable
        exact hlong (.violation hviolated (Bool.eq_false_iff.mpr hunwritable))
      have hrefused := requireValid_of_invalid hvalid
      rw [if_pos hwritable] at hrefused
      exact .inl ⟨e, rfl, by rw [ofDocument, hrefused]; rfl⟩
    | ok =>
      rw [ofDocument_of_valid hvalid]
      cases hread : (TestCase.listField document "parameters").mapM Parameter.ofValue with
      | ok parameters => exact .inr ⟨rfl, _, rfl, rfl⟩
      | error fault =>
        obtain ⟨parameter, hparameter, hfault⟩ := exists_error_of_mapM hread
        have hshape := validate_eq_ok_iff_hasShape.mp hvalid
        exact absurd (.default hshape hparameter (Parameter.ofValue_error hfault).2) hlong

/-- A document with a long integer is no library, and the failure is the one of writing the integer. -/
theorem HasLongInteger.ofDocument_eq (h : HasLongInteger document) (name : Text) :
    ofDocument name document = .error (.write .tooManyDigits) := by
  rcases ofDocument_outcomes name document with ⟨-, hfails⟩ | ⟨hshort, -⟩
  · exact hfails
  · exact absurd h hshort

/-- A document with a long integer is not empty. -/
theorem HasLongInteger.ne_null (h : HasLongInteger document) : document ≠ .null := by
  rintro rfl
  have hfails := h.ofDocument_eq []
  rw [ofDocument, requireValid_null] at hfails
  cases hfails

/-- A document from which a library is built is accepted, and the library has the name. -/
theorem valid_of_ofDocument (h : ofDocument name document = .ok library) :
    validate .stepLibrary document (some name) = .ok () ∧ library.name = name := by
  rcases ofDocument_outcomes name document with
    ⟨-, hfails⟩ | ⟨-, ⟨e, -, hrefused⟩ | ⟨hvalid, own, hown, hname⟩⟩
  · cases hfails.symm.trans h
  · cases hrefused.symm.trans h
  · obtain rfl := Except.ok.inj (hown.symm.trans h)
    exact ⟨hvalid, hname⟩

end StepLibrary

/-- What a file holds for a table of libraries. -/
inductive LibraryContent
  | library (own : StepLibrary)
  | empty
  | unusable (reason : Text)
  | failure (e : Failure)

namespace LibraryContent

/-- The library among what files hold. -/
def library? : LibraryContent → Option StepLibrary
  | library own => some own
  | _ => none

/-- Why what a file holds cannot be used. -/
def reason? : LibraryContent → Option Text
  | unusable reason => some reason
  | _ => none

/-- Why the whole table cannot be loaded. -/
def failure? : LibraryContent → Option Failure
  | failure e => some e
  | _ => none

/-- What loading a file comes to. -/
def ofLoaded : Except Failure (Option StepLibrary) → LibraryContent
  | .ok (some own) => library own
  | .ok none => empty
  | .error (.definition (.unreadable _ reason)) => unusable reason
  | .error (.definition e) => unusable e.message
  | .error (.file e) => unusable e.message
  | .error e => failure e

end LibraryContent

namespace LibraryTable

variable [Runtime] {disk : Disk} {file : Path}

/-- What a file holds. -/
def contentOf (disk : Disk) (file : Path) : LibraryContent := .ofLoaded (loadFile disk file)

/-- A file holds a document. -/
def Holds (disk : Disk) (file : Path) (document : Value) : Prop :=
  ∃ text, disk.readText file = .ok text ∧ Yaml.read text = .ok document

/-- A file can be read, and what it holds is a document or no YAML at all. -/
def IsReadable (disk : Disk) (file : Path) : Prop :=
  ∃ text, disk.readText file = .ok text ∧ ∀ fault, Yaml.read text ≠ .error (.scalar fault)

/-- A file holds a document that is accepted as a step library. -/
def HoldsValid (disk : Disk) (file : Path) : Prop :=
  ∃ document, Holds disk file document ∧ document ≠ .null ∧
    validate .stepLibrary document (some file.stem) = .ok ()

/-- A file holds a document, and this library is built from it. -/
def HoldsLibrary (disk : Disk) (file : Path) (library : StepLibrary) : Prop :=
  ∃ document, Holds disk file document ∧ document ≠ .null ∧ StepLibrary.ofDocument file.stem document = .ok library

/-- A file is malformed or holds an invalid document, which is told for this reason. -/
inductive IsUnusable (disk : Disk) (file : Path) : Text → Prop
  | malformed {text : Text} (htext : disk.readText file = .ok text) (hread : Yaml.read text = .error .malformed) :
      IsUnusable disk file (Runtime.complaint text)
  | invalid {document : Value} {e : DefinitionError} (h : Holds disk file document) (hnull : document ≠ .null)
      (hinvalid : validate .stepLibrary document (some file.stem) = .error e) : IsUnusable disk file e.message

/-- A file holds a document in which an integer is too long to be written where it has to be. -/
def IsTooLong (disk : Disk) (file : Path) : Prop :=
  ∃ document, Holds disk file document ∧ StepLibrary.HasLongInteger document

/-- What a file holds follows from the document in it. -/
theorem Holds.contentOf_eq {document : Value} (h : Holds disk file document) (hnull : document ≠ .null) :
    contentOf disk file = .ofLoaded (some <$> StepLibrary.ofDocument file.stem document) := by
  obtain ⟨text, htext, hread⟩ := h
  rw [contentOf, loadFile, htext]
  simp only [bind, Except.bind, hread]
  rw [if_neg (mt Value.isNull_iff.mp hnull)]

/-- A file that holds nothing has no content. -/
theorem contentOf_of_empty (h : Holds disk file .null) : contentOf disk file = .empty := by
  obtain ⟨text, htext, hread⟩ := h
  rw [contentOf, loadFile, htext]
  simp only [bind, Except.bind, hread]
  rfl

/-- A file that holds a library has it as its content. -/
theorem contentOf_of_holdsLibrary {library : StepLibrary} (h : HoldsLibrary disk file library) :
    contentOf disk file = .library library := by
  obtain ⟨document, hholds, hnull, hbuilt⟩ := h
  rw [hholds.contentOf_eq hnull, hbuilt]
  rfl

/-- A file with a long integer has the failure of writing it as its content. -/
theorem contentOf_of_isTooLong (h : IsTooLong disk file) :
    contentOf disk file = .failure (.write .tooManyDigits) := by
  obtain ⟨document, hholds, hlong⟩ := h
  rw [hholds.contentOf_eq hlong.ne_null, hlong.ofDocument_eq]
  rfl

/-- A document that is not accepted is refused for that, or it is too long. -/
theorem contentOf_of_isUnusable {reason : Text} (h : IsUnusable disk file reason) (hshort : ¬ IsTooLong disk file) :
    contentOf disk file = .unusable reason := by
  cases h with
  | malformed htext hread =>
    rw [contentOf, loadFile, htext]
    simp only [bind, Except.bind, hread]
    rfl
  | @invalid document e hholds hnull hinvalid =>
    rw [hholds.contentOf_eq hnull]
    rcases StepLibrary.ofDocument_outcomes file.stem document with
      ⟨hlong, -⟩ | ⟨-, ⟨own, hown, hrefused⟩ | ⟨hvalid, -⟩⟩
    · exact absurd ⟨document, hholds, hlong⟩ hshort
    · have hshape : ¬ DocumentKind.stepLibrary.HasShape document := fun hshape => by
        cases (validate_eq_ok_iff_hasShape.mpr hshape).symm.trans hown
      obtain rfl := Except.error.inj (hown.symm.trans hinvalid)
      obtain rfl := Except.error.inj ((validate_of_not_hasShape hnull hshape _).symm.trans hown)
      rw [hrefused]
      rfl
    · cases hvalid.symm.trans hinvalid

/-- A library has its name from its file. -/
theorem HoldsLibrary.name_eq {library : StepLibrary} (h : HoldsLibrary disk file library) :
    library.name = file.stem := by
  obtain ⟨document, -, -, hbuilt⟩ := h
  exact (StepLibrary.valid_of_ofDocument hbuilt).2

/-- A file that can be read is empty, unusable or too long, or it holds a library. -/
theorem cases_of_isReadable (h : IsReadable disk file) :
    Holds disk file .null ∨ (∃ reason, IsUnusable disk file reason) ∨ IsTooLong disk file ∨
      ∃ library, HoldsLibrary disk file library := by
  obtain ⟨text, htext, hscalar⟩ := h
  cases hread : Yaml.read text with
  | error e =>
    cases e with
    | malformed => exact .inr (.inl ⟨_, .malformed htext hread⟩)
    | scalar fault => exact absurd hread (hscalar fault)
  | ok document =>
    have hholds : Holds disk file document := ⟨text, htext, hread⟩
    by_cases hnull : document = .null
    · exact .inl (hnull ▸ hholds)
    · rcases StepLibrary.ofDocument_outcomes file.stem document with
        ⟨hlong, -⟩ | ⟨-, ⟨e, hinvalid, -⟩ | ⟨-, library, hlibrary, -⟩⟩
      · exact .inr (.inr (.inl ⟨document, hholds, hlong⟩))
      · exact .inr (.inl ⟨_, .invalid hholds hnull hinvalid⟩)
      · exact .inr (.inr (.inr ⟨library, document, hholds, hnull, hlibrary⟩))

/-- A file that can be read and is not too long. -/
structure IsTractable (disk : Disk) (file : Path) : Prop where
  readable : IsReadable disk file
  short : ¬ IsTooLong disk file

namespace IsTractable

variable (h : IsTractable disk file)

include h

/-- Such a file is empty or unusable, or it holds a library, and is taken for what it is. -/
theorem content_cases : (contentOf disk file = .empty ∧ Holds disk file .null) ∨
    (∃ reason, contentOf disk file = .unusable reason ∧ IsUnusable disk file reason) ∨
    ∃ library, contentOf disk file = .library library ∧ HoldsLibrary disk file library := by
  rcases cases_of_isReadable h.readable with hempty | ⟨reason, hreason⟩ | hlong | ⟨library, hlibrary⟩
  · exact .inl ⟨contentOf_of_empty hempty, hempty⟩
  · exact .inr (.inl ⟨reason, contentOf_of_isUnusable hreason h.short, hreason⟩)
  · exact absurd hlong h.short
  · exact .inr (.inr ⟨library, contentOf_of_holdsLibrary hlibrary, hlibrary⟩)

/-- A file without a long integer does not end loading. -/
theorem failure?_eq_none : (contentOf disk file).failure? = none := by
  rcases h.content_cases with ⟨hcontent, -⟩ | ⟨reason, hcontent, -⟩ | ⟨library, hcontent, -⟩ <;>
    rw [hcontent] <;> rfl

/-- The library that is loaded from a file is the one that it holds. -/
theorem library?_eq_some_iff {library : StepLibrary} :
    (contentOf disk file).library? = some library ↔ HoldsLibrary disk file library := by
  refine ⟨fun hlibrary => ?_, fun hlibrary => by rw [contentOf_of_holdsLibrary hlibrary]; rfl⟩
  rcases h.content_cases with ⟨hcontent, -⟩ | ⟨reason, hcontent, -⟩ | ⟨own, hcontent, hown⟩ <;>
    rw [hcontent] at hlibrary
  · cases hlibrary
  · cases hlibrary
  · exact Option.some.inj hlibrary ▸ hown

/-- A file holds a library exactly if it holds a document that is accepted as one. -/
theorem holdsValid_iff : HoldsValid disk file ↔ ∃ library, HoldsLibrary disk file library := by
  constructor
  · rintro ⟨document, hholds, hnull, hvalid⟩
    rcases StepLibrary.ofDocument_outcomes file.stem document with
      ⟨hlong, -⟩ | ⟨-, ⟨e, hinvalid, -⟩ | ⟨-, library, hlibrary, -⟩⟩
    · exact absurd ⟨document, hholds, hlong⟩ h.short
    · cases hinvalid.symm.trans hvalid
    · exact ⟨library, document, hholds, hnull, hlibrary⟩
  · rintro ⟨library, document, hholds, hnull, hlibrary⟩
    exact ⟨document, hholds, hnull, (StepLibrary.valid_of_ofDocument hlibrary).1⟩

/-- The library in a file has a name if it is the stem of the file. -/
theorem isNamed_iff {name : Text} :
    ((contentOf disk file).library?.any fun library => library.name == name) = true ↔
    file.stem = name ∧ HoldsValid disk file := by
  rw [Option.any_eq_true, h.holdsValid_iff]
  constructor
  · rintro ⟨library, hlibrary, hname⟩
    have hholds := h.library?_eq_some_iff.mp hlibrary
    exact ⟨hholds.name_eq.symm.trans (beq_iff_eq.mp hname), library, hholds⟩
  · rintro ⟨rfl, library, hholds⟩
    exact ⟨library, h.library?_eq_some_iff.mpr hholds, beq_iff_eq.mpr hholds.name_eq⟩

/-- What is told about a file is why it is unusable. -/
theorem reason?_eq_some_iff {reason : Text} :
    (contentOf disk file).reason? = some reason ↔ IsUnusable disk file reason := by
  refine ⟨fun hreason => ?_, fun hreason => by rw [contentOf_of_isUnusable hreason h.short]; rfl⟩
  rcases h.content_cases with ⟨hcontent, -⟩ | ⟨own, hcontent, hown⟩ | ⟨library, hcontent, -⟩ <;>
    rw [hcontent] at hreason
  · cases hreason
  · exact Option.some.inj hreason ▸ hown
  · cases hreason

end IsTractable

end LibraryTable
end TestPlan
