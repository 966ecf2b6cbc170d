import TestPlan.Proofs.Definition.Shape
import TestPlan.Proofs.Expansion.Faults

/-!
# Libraries that documents describe

A document without self-reference describes a library or is refused with its problems, as long as every
integer in it can be written (`StepLibrary.ofDocument_cases`). The steps of the library are those of the
document, so a table of such libraries has no self-reference either.
-/

namespace TestPlan

/-- Where going through a list fails, it fails at one of the items. -/
theorem exists_error_of_mapM {ε α β : Type} {f : α → Except ε β} {items : List α} {e : ε}
    (h : items.mapM f = .error e) : ∃ item ∈ items, f item = .error e := by
  induction items with
  | nil => simp [pure, Except.pure] at h
  | cons item rest ih =>
    rw [List.mapM_cons] at h
    cases hitem : f item with
    | error other =>
      obtain rfl : other = e := by simpa [hitem, bind, Except.bind] using h
      exact ⟨item, List.mem_cons_self, hitem⟩
    | ok b =>
      cases hrest : rest.mapM f with
      | ok bs => simp [hitem, hrest, bind, Except.bind, pure, Except.pure] at h
      | error other =>
        obtain rfl : other = e := by simpa [hitem, hrest, bind, Except.bind] using h
        obtain ⟨found, hfound, herror⟩ := ih hrest
        exact ⟨found, List.mem_cons_of_mem _ hfound, herror⟩

/-- Where going through a list succeeds, it succeeds at all items. -/
theorem exists_ok_of_mapM {ε α β : Type} {f : α → Except ε β} {items : List α} {bs : List β}
    (h : items.mapM f = .ok bs) {item : α} (hitem : item ∈ items) : ∃ b, f item = .ok b := by
  induction items generalizing bs with
  | nil => simp at hitem
  | cons first rest ih =>
    rw [List.mapM_cons] at h
    cases hfirst : f first with
    | error e => simp [hfirst, bind, Except.bind] at h
    | ok b =>
      cases hrest : rest.mapM f with
      | error e => simp [hfirst, hrest, bind, Except.bind] at h
      | ok others =>
        rcases List.mem_cons.mp hitem with rfl | hmem
        · exact ⟨b, hfirst⟩
        · exact ih hrest hmem

/-- A declared parameter is read unless its default has an integer that is too long. -/
theorem Parameter.ofValue_error {v : Value} {e : WriteFault} (h : ofValue v = .error e) :
    e = .tooManyDigits ∧ (v.field "default").isWritable = false := by
  unfold ofValue defaultOf? at h
  split at h
  · simp [bind, Except.bind, pure, Except.pure] at h
  · unfold Value.write at h
    split at h
    · simp [bind, Except.bind, pure, Except.pure] at h
    next hlong =>
      exact ⟨by cases e; rfl, by simpa using hlong⟩

/-- A default with an integer that is too long is not read. -/
theorem Parameter.ofValue_of_long {v : Value} (h : (v.field "default").isWritable = false) :
    ofValue v = .error .tooManyDigits := by
  have hnull : ¬ (v.field "default").isNull = true := by
    intro hnull
    rw [Value.isNull_iff.mp hnull] at h
    exact absurd h (by decide)
  unfold ofValue defaultOf? Value.write
  rw [if_neg hnull, if_neg (by simp [h])]
  rfl

namespace StepLibrary

/-- The library is described by a document without self-reference. -/
def IsBuilt (library : StepLibrary) : Prop :=
  ∃ name document, document.isPlain = true ∧ ofDocument name document = .ok library

/-- What a valid document describes depends on its parameters alone. -/
theorem ofDocument_of_valid {name : Text} {document : Value}
    (h : validate .stepLibrary document (some name) = .ok ()) : ofDocument name document =
      (do return {
        name := name
        description := Parameter.descriptionOf document
        parameters := ←
          ((TestCase.listField document "parameters").mapM Parameter.ofValue).mapError Failure.write
        steps := TestCase.listField document "steps" }) := by
  unfold ofDocument
  rw [requireValid_eq_ok_iff.mpr h]
  rfl

/-- What a document without self-reference may describe: a library with its steps, or problems that are
told, unless an integer in it is too long. -/
theorem ofDocument_cases (name : Text) {document : Value} (hplain : document.isPlain = true) :
    (∃ library, ofDocument name document = .ok library ∧ library.name = name ∧
      library.steps = TestCase.listField document "steps" ∧ LibraryShape document) ∨
    (∃ e, ofDocument name document = .error (.definition e)) ∨
    ofDocument name document = .error (.write .tooManyDigits) ∧ document.treeWritable = false := by
  cases hvalid : validate .stepLibrary document (some name) with
  | error e =>
    have hrefused := requireValid_of_invalid hvalid
    by_cases hwrite : (problems .stepLibrary document).all Problem.writable = true
    · rw [if_pos hwrite] at hrefused
      exact .inr (.inl ⟨e, by unfold ofDocument; rw [hrefused]; rfl⟩)
    · rw [if_neg hwrite] at hrefused
      refine .inr (.inr ⟨by unfold ofDocument; rw [hrefused]; rfl, Bool.eq_false_iff.mpr ?_⟩)
      exact mt (fun h => problems_writable hplain h .stepLibrary) hwrite
  | ok =>
    rw [ofDocument_of_valid hvalid]
    cases hread : (TestCase.listField document "parameters").mapM Parameter.ofValue with
    | ok parameters => exact .inl ⟨_, rfl, rfl, rfl, libraryShape_of_valid hvalid⟩
    | error fault =>
      obtain ⟨parameter, hparameter, hfault⟩ := exists_error_of_mapM hread
      obtain ⟨rfl, hlong⟩ := Parameter.ofValue_error hfault
      refine .inr (.inr ⟨rfl, Bool.eq_false_iff.mpr fun hwrite => ?_⟩)
      have hparameterPlain := Value.inherited_isPlain.of_mem_listField hplain hplain hparameter
      have hparameterWrite := Value.inherited_treeWritable.of_mem_listField hplain hwrite hparameter
      rw [Value.isWritable_field hparameterPlain hparameterWrite] at hlong
      exact absurd hlong (by decide)

end StepLibrary

/-- A table of libraries that documents without self-reference describe has no self-reference. -/
theorem LibraryTable.isPlain_of_isBuilt {table : LibraryTable} (h : ∀ library ∈ table, library.IsBuilt) :
    table.IsPlain := by
  intro library hlibrary step hstep
  obtain ⟨name, document, hplain, hbuilt⟩ := h library hlibrary
  rcases StepLibrary.ofDocument_cases name hplain with ⟨other, hother, -, hsteps, -⟩ | ⟨e, he⟩ | ⟨hlong, -⟩
  · obtain rfl : other = library := Except.ok.inj (hother.symm.trans hbuilt)
    rw [hsteps] at hstep
    exact Value.inherited_isPlain.of_mem_listField hplain hplain hstep
  · simp [hbuilt] at he
  · simp [hbuilt] at hlong

end TestPlan
