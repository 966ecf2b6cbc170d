import TestPlan.Proofs.StepText
import TestPlan.TestCase

/-!
# Shapes of definitions

What is known of a document in which a check finds nothing. Each part of a check finds nothing exactly when
the values that it looks at are as it wants them, so a valid document has the shape of its kind: the fields
that resolving reads are missing, null, or of the kind that is read (`CaseShape`, `LibraryShape`).

A document that is not valid is described by its problems. They can be written as long as every integer in
the document can (`problems_writable`), and only then is the document refused with its problems
(`requireValid_of_invalid`).
-/

namespace TestPlan

namespace Value

/-- A value has one of these kinds. -/
def IsA (v : Value) (allowed : List ValueKind) : Prop := ∃ kind ∈ allowed, v.kind? = some kind

/-- Only the null itself is null. -/
theorem isNull_iff {v : Value} : v.isNull = true ↔ v = .null := by
  cases v with
  | scalar s => cases s <;> simp [isNull]
  | _ => simp [isNull]

/-- What looks like a scalar is that scalar, since loops are containers. -/
theorem eq_scalar_of_view {v : Value} {s : Scalar} (h : v.view = .scalar s) : v = .scalar s := by
  cases v with
  | scalar t => exact congrArg Value.scalar (View.scalar.inj h)
  | knot g index =>
    rw [view] at h
    split at h <;> simp at h
  | _ => simp [view] at h

/-- A value of a kind without parts is a scalar. -/
theorem eq_scalar_of_kind {v : Value} {kind : ValueKind} (h : v.kind? = some kind) (hlist : kind ≠ .list)
    (hmapping : kind ≠ .mapping) : ∃ s, v = .scalar s := by
  cases hview : v.view with
  | scalar s => exact ⟨s, eq_scalar_of_view hview⟩
  | list items => simp [kind?, hview, hlist.symm] at h
  | map entries => simp [kind?, hview, hmapping.symm] at h
  | pair first second => simp [kind?, hview] at h
  | set members => simp [kind?, hview] at h

/-- What is of the kind of texts is a text. -/
theorem eq_text_of_kind {v : Value} (h : v.kind? = some .text) : ∃ s, v = .text s := by
  obtain ⟨s, rfl⟩ := eq_scalar_of_kind h (by decide) (by decide)
  cases s <;> simp [kind?, view] at h
  exact ⟨_, rfl⟩

/-- What is of the kind of mappings has entries. -/
theorem entries_of_kind {v : Value} (h : v.kind? = some .mapping) : ∃ entries, v.entries? = some entries := by
  cases hview : v.view with
  | map entries => exact ⟨entries, by rw [entries?, hview]⟩
  | scalar s => cases s <;> simp [kind?, hview] at h
  | _ => simp [kind?, hview] at h

/-- What is passed on is passed on to the value of a field. -/
theorem Inherited.of_field? {P : Value → Prop} (hP : Inherited P) {v part : Value} (hplain : v.isPlain = true)
    (hv : P v) {name : Text} (hpart : v.field? name = some part) : P part := by
  obtain ⟨entries, hentries, hfind⟩ := Option.bind_eq_some_iff.mp hpart
  cases v with
  | map own =>
    obtain rfl : own = entries := Option.some.inj hentries
    exact hP.entry hv (Entries.mem_of_find?_eq_some hfind)
  | knot g index => simp [isPlain] at hplain
  | _ => simp [entries?, view] at hentries

/-- What is passed on is passed on to the items of a list. -/
theorem Inherited.of_items? {P : Value → Prop} (hP : Inherited P) {v item : Value} (hplain : v.isPlain = true)
    (hv : P v) {items : List Value} (hitems : v.items? = some items) (hitem : item ∈ items) : P item := by
  cases v with
  | list own =>
    obtain rfl : own = items := Option.some.inj hitems
    exact hP.item hv hitem
  | knot g index => simp [isPlain] at hplain
  | _ => simp [items?, view] at hitems

/-- What is passed on is passed on to the items of a list field. -/
theorem Inherited.of_mem_listField {P : Value → Prop} (hP : Inherited P) {v item : Value}
    (hplain : v.isPlain = true) (hv : P v) {name : Text} (hitem : item ∈ TestCase.listField v name) :
    P item := by
  unfold TestCase.listField field at hitem
  cases hpart : v.field? name with
  | none => simp [hpart, items?, view] at hitem
  | some part =>
    rw [hpart, Option.getD_some] at hitem
    cases hitems : part.items? with
    | none => simp [hitems] at hitem
    | some items =>
      rw [hitems, Option.getD_some] at hitem
      exact hP.of_items? (inherited_isPlain.of_field? hplain hplain hpart) (hP.of_field? hplain hv hpart)
        hitems hitem

/-- The fields of a value without self-reference can be written if it can. -/
theorem isWritable_field {v : Value} (hplain : v.isPlain = true) (hwrite : v.treeWritable = true) (name : Text) :
    (v.field name).isWritable = true := by
  unfold field
  cases hpart : v.field? name with
  | none => rfl
  | some part =>
    rw [Option.getD_some, isWritable_of_isPlain (inherited_isPlain.of_field? hplain hplain hpart)]
    exact inherited_treeWritable.of_field? hplain hwrite hpart

end Value

namespace Check

variable {at_ : Position} {v : Value}

/-- A check for kinds finds nothing exactly if the value is of one of them. -/
theorem kinds_eq_nil_iff {allowed : List ValueKind} : kinds allowed at_ v = [] ↔ v.IsA allowed := by
  unfold kinds Value.IsA
  cases v.kind? with
  | none => simp
  | some kind => by_cases h : kind ∈ allowed <;> simp [h]

/-- Checks made together find nothing exactly if none of them does. -/
theorem all_eq_nil_iff {checks : List Check} : all checks at_ v = [] ↔ ∀ check ∈ checks, check at_ v = [] :=
  List.flatMap_eq_nil_iff

/-- A check for a field finds nothing exactly if the field is there; values without fields are none of its concern.
-/
theorem requires_eq_nil_iff {name : String} :
    requires name at_ v = [] ↔ ∀ entries, v.entries? = some entries → (entries.find? name).isSome = true := by
  unfold requires
  cases v.entries? with
  | none => simp
  | some entries => cases h : entries.find? name <;> simp [h]

/-- A check of a field finds nothing exactly if it finds nothing in the field, when that is there. -/
theorem field_eq_nil_iff {name : String} {check : Check} : field name check at_ v = [] ↔
    ∀ part, v.field? name = some part →
      check ⟨at_.place ++ [.field name], at_.rule ++ ["properties", name]⟩ part = [] := by
  unfold field
  cases v.field? name <;> simp

/-- A check of all items finds nothing exactly if it finds nothing in any of them. -/
theorem items_eq_nil_iff {check : Check} : items check at_ v = [] ↔ ∀ parts, v.items? = some parts →
    ∀ part i, (part, i) ∈ parts.zipIdx → check ⟨at_.place ++ [.item i], at_.rule ++ ["items"]⟩ part = [] := by
  unfold items
  cases v.items? with
  | none => simp
  | some parts => simp only [List.flatMap_eq_nil_iff, Prod.forall, Option.some.injEq, forall_eq']

/-- A field that may be null and is checked for its kind is of that kind, also where it is missing. -/
theorem isA_of_field {name : String} {allowed : List ValueKind} (hnull : .null ∈ allowed)
    (h : field name (kinds allowed) at_ v = []) : (v.field name).IsA allowed := by
  rw [field_eq_nil_iff] at h
  cases hpart : v.field? name with
  | none => exact ⟨.null, hnull, by simp [Value.field, hpart, Value.kind?, Value.view]⟩
  | some part => simpa [Value.field, hpart] using kinds_eq_nil_iff.mp (h part hpart)

/-- A field that may be null and holds checked items otherwise is null or a list, and its items pass. -/
theorem list_of_field {name : String} {check : Check}
    (h : field name (all [optionalList, items check]) at_ v = []) :
    (v.field name).IsA [.list, .null] ∧ ∀ part ∈ TestCase.listField v name, ∃ at_, check at_ part = [] := by
  have hpasses (part : Value) (hpart : v.field? name = some part) :=
    all_eq_nil_iff.mp (field_eq_nil_iff.mp h part hpart)
  refine ⟨isA_of_field (by decide) (field_eq_nil_iff.mpr fun part hpart =>
    hpasses part hpart optionalList List.mem_cons_self), fun part hpart => ?_⟩
  cases hfield : v.field? name with
  | none => simp [TestCase.listField, Value.field, hfield, Value.items?, Value.view] at hpart
  | some parts =>
    have hitems := items_eq_nil_iff.mp (hpasses parts hfield (items check) (by simp))
    simp only [TestCase.listField, Value.field, hfield, Option.getD_some] at hpart
    cases hparts : parts.items? with
    | none => simp [hparts] at hpart
    | some inner =>
      simp only [hparts, Option.getD_some] at hpart
      obtain ⟨i, hi⟩ := List.mem_iff_getElem?.mp hpart
      exact ⟨_, hitems inner hparts part i (List.mk_mem_zipIdx_iff_getElem?.mpr hi)⟩

end Check

/-- A document has problems exactly where its check finds something. -/
theorem problems_eq_nil_iff {kind : DocumentKind} {v : Value} :
    problems kind v = [] ↔ Check.document kind ⟨[], []⟩ v = [] := by
  rw [problems, ← List.length_eq_zero_iff, ← List.length_eq_zero_iff, List.length_mergeSort]

/-- A document of any kind is a mapping. -/
theorem isA_mapping_of_document {kind : DocumentKind} {v : Value} (h : Check.document kind ⟨[], []⟩ v = []) :
    v.IsA [.mapping] := by
  cases kind <;> exact Check.kinds_eq_nil_iff.mp (Check.all_eq_nil_iff.mp h _ List.mem_cons_self)

/-- A document is valid exactly if its check finds nothing. -/
theorem validate_eq_ok_iff {kind : DocumentKind} {v : Value} {source : Option Text} :
    validate kind v source = .ok () ↔ Check.document kind ⟨[], []⟩ v = [] := by
  rw [← problems_eq_nil_iff]
  unfold validate
  constructor
  · intro h
    split at h
    · simp at h
    · split at h
      next hnone => exact hnone
      · simp at h
  · intro h
    obtain ⟨kind, hkind, hv⟩ := isA_mapping_of_document (problems_eq_nil_iff.mp h)
    obtain rfl := List.mem_singleton.mp hkind
    have hnull : v.isNull = false := by
      cases v with
      | scalar s => cases s <;> simp [Value.kind?, Value.view] at hv
      | _ => rfl
    rw [hnull, h]
    rfl

/-- What resolving a test case reads from its definition is there as it is read. -/
structure CaseShape (v : Value) : Prop where
  mapping : v.IsA [.mapping]
  description : (v.field "description").IsA [.text, .null]
  tags : (v.field "tags").IsA [.list, .null]
  tag : ∀ tag ∈ TestCase.listField v "tags", tag.IsA [.text, .number, .truth]
  steps : (v.field "steps").IsA [.list, .null]

/-- What a parameter of a library is built from is there as it is read. -/
structure ParameterShape (v : Value) : Prop where
  mapping : v.IsA [.mapping]
  name : ∃ name, v.field? "name" = some (.text name)
  description : (v.field "description").IsA [.text, .null]
  default : (v.field "default").IsA [.text, .number, .truth, .null]

/-- What a library is built from is there as it is read. -/
structure LibraryShape (v : Value) : Prop where
  mapping : v.IsA [.mapping]
  description : (v.field "description").IsA [.text, .null]
  parameters : (v.field "parameters").IsA [.list, .null]
  parameter : ∀ parameter ∈ TestCase.listField v "parameters", ParameterShape parameter
  steps : (v.field "steps").IsA [.list, .null]

section Valid

variable {v : Value} {source : Option Text}

/-- A valid test case has the shape of one. -/
theorem caseShape_of_valid (h : validate .testCase v source = .ok ()) : CaseShape v := by
  have hchecks := Check.all_eq_nil_iff.mp (validate_eq_ok_iff.mp h)
  obtain ⟨htags, htag⟩ := Check.list_of_field (hchecks (.field "tags" .optionalTags) (by simp))
  exact {
    mapping := isA_mapping_of_document (validate_eq_ok_iff.mp h)
    description := Check.isA_of_field (by decide) (hchecks (.field "description" .optionalText) (by simp))
    tags := htags
    tag := fun tag hmem => (htag tag hmem).elim fun _ hkinds => Check.kinds_eq_nil_iff.mp hkinds
    steps := Check.isA_of_field (by decide) (hchecks (.field "steps" .optionalList) (by simp)) }

/-- The tags of a valid test case or test suite are scalars. -/
theorem scalar_of_mem_tags {kind : DocumentKind} (hkind : kind ≠ .stepLibrary)
    (h : validate kind v source = .ok ()) {tag : Value} (htag : tag ∈ TestCase.listField v "tags") :
    ∃ s, tag = .scalar s := by
  have hchecks := validate_eq_ok_iff.mp h
  have htags : Check.field "tags" .optionalTags ⟨[], []⟩ v = [] := by
    cases kind with
    | stepLibrary => exact absurd rfl hkind
    | _ => exact Check.all_eq_nil_iff.mp hchecks _ (by simp)
  obtain ⟨at_, hat⟩ := (Check.list_of_field htags).2 tag htag
  obtain ⟨found, hfound, hv⟩ := Check.kinds_eq_nil_iff.mp hat
  refine Value.eq_scalar_of_kind hv ?_ ?_ <;> rintro rfl <;> simp at hfound

/-- A checked parameter has the shape of one. -/
theorem parameterShape_of_check {at_ : Position} (h : Check.parameter at_ v = []) : ParameterShape v := by
  have hchecks := Check.all_eq_nil_iff.mp h
  have hmapping := Check.kinds_eq_nil_iff.mp (hchecks (.kinds [.mapping]) (by simp))
  have hname : ∃ name, v.field? "name" = some (.text name) := by
    obtain ⟨kind, hkind, hv⟩ := hmapping
    obtain rfl := List.mem_singleton.mp hkind
    obtain ⟨entries, hentries⟩ := Value.entries_of_kind hv
    have hthere := Check.requires_eq_nil_iff.mp (hchecks (.requires "name") (by simp)) entries hentries
    obtain ⟨part, hpart⟩ := Option.isSome_iff_exists.mp hthere
    have hfield : v.field? "name" = some part := by rw [Value.field?, hentries, Option.bind_some, hpart]
    have htext := Check.field_eq_nil_iff.mp (hchecks (.field "name" (.kinds [.text])) (by simp)) part hfield
    obtain ⟨kind, hkind, hpart⟩ := Check.kinds_eq_nil_iff.mp htext
    obtain rfl := List.mem_singleton.mp hkind
    obtain ⟨name, rfl⟩ := Value.eq_text_of_kind hpart
    exact ⟨name, hfield⟩
  exact {
    mapping := hmapping
    name := hname
    description := Check.isA_of_field (by decide) (hchecks (.field "description" .optionalText) (by simp))
    default := Check.isA_of_field (by decide) (hchecks _ (by simp)) }

/-- A valid step library has the shape of one. -/
theorem libraryShape_of_valid (h : validate .stepLibrary v source = .ok ()) : LibraryShape v := by
  have hchecks := Check.all_eq_nil_iff.mp (validate_eq_ok_iff.mp h)
  obtain ⟨hparameters, hparameter⟩ :=
    Check.list_of_field (hchecks (.field "parameters" (.all [.optionalList, .items .parameter])) (by simp))
  exact {
    mapping := isA_mapping_of_document (validate_eq_ok_iff.mp h)
    description := Check.isA_of_field (by decide) (hchecks (.field "description" .optionalText) (by simp))
    parameters := hparameters
    parameter := fun parameter hmem => (hparameter parameter hmem).elim fun _ => parameterShape_of_check
    steps := Check.isA_of_field (by decide) (hchecks (.field "steps" .optionalList) (by simp)) }

end Valid

/-- A document may be used exactly if it is valid. -/
theorem requireValid_eq_ok_iff {kind : DocumentKind} {v : Value} {source : Option Text} :
    requireValid kind v source = .ok () ↔ validate kind v source = .ok () := by
  unfold requireValid
  constructor
  · intro h
    split at h
    · cases hvalid : validate kind v source with
      | ok => rfl
      | error e => simp [hvalid, Except.mapError] at h
    · simp at h
  · intro h
    have hnone := problems_eq_nil_iff.mpr (validate_eq_ok_iff.mp h)
    rw [hnone, h]
    rfl

/-- A document that is not valid is refused for that, as far as its problems can be written. -/
theorem requireValid_of_invalid {kind : DocumentKind} {v : Value} {source : Option Text} {e : DefinitionError}
    (h : validate kind v source = .error e) : requireValid kind v source =
      .error (if (problems kind v).all Problem.writable then .definition e else .write .tooManyDigits) := by
  rw [requireValid, h]
  split <;> rfl

namespace Check

/-- The problems that a check finds in a value without self-reference can be written if the value can. -/
def IsLegible (check : Check) : Prop := ∀ at_ v, v.isPlain = true → v.treeWritable = true →
  ∀ problem ∈ check at_ v, problem.writable = true

/-- The problems of a check for kinds can be written if the value can. -/
theorem isLegible_kinds (allowed : List ValueKind) : (kinds allowed).IsLegible := by
  intro at_ v hv hwrite problem hproblem
  rw [kinds] at hproblem
  split at hproblem
  · simp at hproblem
  · rw [List.mem_singleton.mp hproblem]
    exact (Value.isWritable_of_isPlain hv).trans hwrite

/-- The problems of a check for a field can be written if the value can. -/
theorem isLegible_requires (name : String) : (requires name).IsLegible := by
  intro at_ v hv hwrite problem hproblem
  rw [requires] at hproblem
  split at hproblem
  · split at hproblem
    · simp at hproblem
    · rw [List.mem_singleton.mp hproblem]
      exact (Value.isWritable_of_isPlain hv).trans hwrite
  · simp at hproblem

/-- A field can be written if the value can, so its problems can. -/
theorem IsLegible.field {check : Check} (h : check.IsLegible) (name : String) :
    (Check.field name check).IsLegible := by
  intro at_ v hv hwrite problem hproblem
  rw [Check.field] at hproblem
  split at hproblem
  next part hpart =>
    exact h _ part (Value.inherited_isPlain.of_field? hv hv hpart)
      (Value.inherited_treeWritable.of_field? hv hwrite hpart) problem hproblem
  · simp at hproblem

/-- Items can be written if the value can, so their problems can. -/
theorem IsLegible.items {check : Check} (h : check.IsLegible) : (Check.items check).IsLegible := by
  intro at_ v hv hwrite problem hproblem
  rw [Check.items] at hproblem
  split at hproblem
  next parts hparts =>
    obtain ⟨⟨part, i⟩, hpart, hproblem⟩ := List.mem_flatMap.mp hproblem
    have hmem : part ∈ parts := List.fst_mem_of_mem_zipIdx hpart
    exact h _ part (Value.inherited_isPlain.of_items? hv hv hparts hmem)
      (Value.inherited_treeWritable.of_items? hv hwrite hparts hmem) problem hproblem
  · simp at hproblem

/-- The problems of checks made together are problems of one of them. -/
theorem isLegible_all {checks : List Check} (h : ∀ check ∈ checks, check.IsLegible) :
    (all checks).IsLegible := by
  intro at_ v hv hwrite problem hproblem
  obtain ⟨check, hcheck, hproblem⟩ := List.mem_flatMap.mp hproblem
  exact h check hcheck at_ v hv hwrite problem hproblem

/-- The problems of a document that can be written can be written. -/
theorem isLegible_document (kind : DocumentKind) : (document kind).IsLegible := by
  have hlist {check : Check} (h : check.IsLegible) : (all [optionalList, .items check]).IsLegible :=
    isLegible_all (by simpa [optionalList] using ⟨isLegible_kinds _, h.items⟩)
  have htext (name : String) : (field name optionalText).IsLegible := (isLegible_kinds _).field name
  have hparameter : parameter.IsLegible := isLegible_all (by
    simpa using ⟨isLegible_kinds _, isLegible_requires _, (isLegible_kinds _).field _, htext _,
      (isLegible_kinds _).field _⟩)
  cases kind <;> refine isLegible_all ?_ <;> simp only [List.forall_mem_cons, List.not_mem_nil, false_imp_iff,
    implies_true, and_true]
  · exact ⟨isLegible_kinds _, htext _, (hlist (isLegible_kinds _)).field _, (isLegible_kinds _).field _⟩
  · exact ⟨isLegible_kinds _, htext _, htext _, (hlist (isLegible_kinds _)).field _,
      (isLegible_kinds _).field _, (hlist (isLegible_kinds _)).field _, (hlist (isLegible_kinds _)).field _⟩
  · exact ⟨isLegible_kinds _, htext _, (hlist hparameter).field _, (isLegible_kinds _).field _⟩

end Check

/-- The problems of a document without self-reference can be written if every integer in it can. -/
theorem problems_writable {v : Value} (hv : v.isPlain = true) (hwrite : v.treeWritable = true)
    (kind : DocumentKind) : (problems kind v).all Problem.writable = true := by
  rw [List.all_eq_true]
  intro problem hproblem
  exact Check.isLegible_document kind _ v hv hwrite problem
    ((List.mergeSort_perm _ _).mem_iff.mp hproblem)

end TestPlan
