import Mathlib.Logic.Relation
import TestPlan.Proofs.Definition.Constraint
import TestPlan.Proofs.Entries
import TestPlan.Proofs.Files.Listing

/-!
# What validation says

A document is accepted exactly if it has the shape of its kind, which is exactly if it violates none of the
constraints on its kind. Else its problems are listed: one for each violated constraint, sorted
(`IsAccount`). What the rules do not look at plays no part in the list: neither the order of the entries of the
document or of a declared parameter, nor entries that the rules do not name (`Rearranges`).
-/

namespace TestPlan

/-- A test suite is as it is read. -/
structure SuiteShape (v : Value) : Prop where
  mapping : v.IsA [.mapping]
  name : (v.field "name").IsA [.text, .null]
  description : (v.field "description").IsA [.text, .null]
  tags : (v.field "tags").IsA [.list, .null]
  tag : ∀ tag ∈ TestCase.listField v "tags", tag.IsA [.text, .number, .truth]
  testCases : (v.field "test-cases").IsA [.list, .null]
  preActions : (v.field "pre-actions").IsA [.list, .null]
  preAction : ∀ action ∈ TestCase.listField v "pre-actions", action.IsA [.text]
  postActions : (v.field "post-actions").IsA [.list, .null]
  postAction : ∀ action ∈ TestCase.listField v "post-actions", action.IsA [.text]

/-- A document has the shape of its kind. -/
def DocumentKind.HasShape : DocumentKind → Value → Prop
  | testCase => CaseShape
  | testSuite => SuiteShape
  | stepLibrary => LibraryShape

/-- A document violates a constraint on its kind, and this is the part of it that does. -/
structure IsViolated (kind : DocumentKind) (v : Value) (way : List Place) (demand : Demand) (part : Value) :
    Prop where
  demanded : Constrains kind way demand
  found : v.at? way = some part
  violates : ∃ flaw, Violates part demand flaw

/-- The problems that a list gives are those of a document, in order: there is one for each violated constraint. -/
structure IsAccount (kind : DocumentKind) (v : Value) (listed : List Problem) : Prop where
  once : (listed.map fun p => (p.place, p.flaw.demand)).Nodup
  complete : ∀ way demand,
    (way, demand) ∈ listed.map (fun p => (p.place, p.flaw.demand)) ↔ ∃ part, IsViolated kind v way demand part
  tells : ∀ p ∈ listed, ∃ part, v.at? p.place = some part ∧ p.Tells ⟨[], []⟩ p.place p.flaw.demand part
  ordered : listed.Pairwise fun first second => Text.precedes first.order second.order

section Account

variable {kind : DocumentKind} {v part : Value} {p : Problem}

/-- A flaw is what a value and a demand make it. -/
theorem Violates.flaw_eq {demand : Demand} {flaw other : Flaw} (h : Violates v demand flaw)
    (hother : Violates v demand other) : flaw = other := by
  cases h <;> cases hother <;> rfl

/-- The problems of a document are its problems with the constraints on its kind. -/
theorem mem_problems_iff : p ∈ problems kind v ↔
    ∃ part, IsViolated kind v p.place p.flaw.demand part ∧ p.Tells ⟨[], []⟩ p.place p.flaw.demand part := by
  rw [problems, (List.mergeSort_perm _ _).mem_iff, (Check.imposes_document kind).mem_iff]
  constructor
  · rintro ⟨way, demand, part, hdemand, hpart, htells⟩
    obtain rfl : p.place = way := htells.place
    obtain rfl := htells.flaw.demand_eq
    exact ⟨part, ⟨hdemand, hpart, _, htells.flaw⟩, htells⟩
  · rintro ⟨part, hviolated, htells⟩
    exact ⟨_, _, part, hviolated.demanded, hviolated.found, htells⟩

/-- Two problems with one constraint are one. -/
theorem eq_of_mem_problems {q : Problem} (hp : p ∈ problems kind v) (hq : q ∈ problems kind v)
    (hplace : p.place = q.place) (hdemand : p.flaw.demand = q.flaw.demand) : p = q := by
  obtain ⟨part, hviolated, htells⟩ := mem_problems_iff.mp hp
  obtain ⟨other, hotherViolated, hotherTells⟩ := mem_problems_iff.mp hq
  rw [← hplace, ← hdemand] at hotherViolated hotherTells
  obtain rfl : part = other := Option.some.inj (hviolated.found.symm.trans hotherViolated.found)
  have hflaw := htells.flaw.flaw_eq hotherTells.flaw
  have hrule := htells.rule.trans hotherTells.rule.symm
  have hwritable := htells.writable.trans hotherTells.writable.symm
  cases p
  cases q
  simp_all

/-- The problems of a document account for it. -/
theorem isAccount_problems (kind : DocumentKind) (v : Value) : IsAccount kind v (problems kind v) where
  once := by
    have hnodup : (problems kind v).Nodup :=
      (List.mergeSort_perm _ _).nodup_iff.mpr ((Check.imposes_document kind).nodup ⟨[], []⟩ v)
    refine hnodup.map_on fun p hp q hq hsame => ?_
    obtain ⟨hplace, hdemand⟩ := Prod.mk.inj hsame
    exact eq_of_mem_problems hp hq hplace hdemand
  complete way demand := by
    rw [List.mem_map]
    constructor
    · rintro ⟨p, hp, hsame⟩
      obtain ⟨rfl, rfl⟩ := Prod.mk.inj hsame
      obtain ⟨part, hviolated, -⟩ := mem_problems_iff.mp hp
      exact ⟨part, hviolated⟩
    · rintro ⟨part, hviolated⟩
      obtain ⟨flaw, hflaw⟩ := hviolated.violates
      obtain rfl := hflaw.demand_eq
      exact ⟨⟨flaw, way, ruleOf way, part.isWritable⟩,
        mem_problems_iff.mpr ⟨part, hviolated, hflaw, rfl, rfl, rfl⟩, rfl⟩
  tells p hp := by
    obtain ⟨part, hviolated, htells⟩ := mem_problems_iff.mp hp
    exact ⟨part, hviolated.found, htells⟩
  ordered := @List.pairwise_mergeSort _ (fun a b : Problem => Text.precedes a.order b.order)
    (fun _ _ _ => Text.precedes_trans) (fun _ _ => Text.precedes_total _ _) _

/-- A document has no problems exactly if it violates no constraint. -/
theorem problems_eq_nil_iff_forall :
    problems kind v = [] ↔ ∀ way demand part, ¬ IsViolated kind v way demand part := by
  constructor
  · intro h way demand part hviolated
    have hmem := ((isAccount_problems kind v).complete way demand).mpr ⟨part, hviolated⟩
    simp [h] at hmem
  · intro h
    rw [List.eq_nil_iff_forall_not_mem]
    intro p hp
    obtain ⟨part, hviolated, -⟩ := mem_problems_iff.mp hp
    exact h _ _ part hviolated

end Account

section Shape

variable {kind : DocumentKind} {v part : Value} {name : String} {allowed : List ValueKind}

/-- A value of an allowed kind does not violate the demand for kinds. -/
theorem not_violates_of_isA (h : v.IsA allowed) : ¬ ∃ flaw, Violates v (.kinds allowed) flaw := by
  rintro ⟨flaw, hflaw⟩
  cases hflaw with
  | kinds hnot => exact hnot h

/-- What has entries is a mapping. -/
theorem Value.isA_of_entries {entries : Entries Value} (h : v.entries? = some entries) : v.IsA [.mapping] := by
  refine ⟨.mapping, List.mem_singleton_self _, ?_⟩
  rw [entries?] at h
  split at h
  next hview => rw [kind?, hview]
  · simp at h

/-- What has items is a list. -/
theorem Value.isA_of_items {items : List Value} (h : v.items? = some items) (hlist : .list ∈ allowed) :
    v.IsA allowed := by
  refine ⟨.list, hlist, ?_⟩
  rw [items?] at h
  split at h
  next hview => rw [kind?, hview]
  · simp at h

/-- A field that is there is the field of its name. -/
theorem Value.field_eq_of_at? (h : v.at? [.field name] = some part) : v.field name = part := by
  have hfield : v.field? name = some part := by simpa [at?] using h
  rw [field, hfield, Option.getD_some]

/-- What is found at an item of a field is found at an item of the list in that field. -/
theorem Value.exists_item_of_at? {index : Nat} {way : List Place}
    (h : v.at? (.field name :: .item index :: way) = some part) :
    ∃ item ∈ TestCase.listField v name, item.at? way = some part := by
  simp only [at?, Option.bind_eq_some_iff] at h
  obtain ⟨list, hlist, item, ⟨items, hitems, hitem⟩, hpart⟩ := h
  refine ⟨item, ?_, hpart⟩
  rw [TestCase.listField, field, hlist, Option.getD_some, hitems, Option.getD_some]
  exact List.mem_of_getElem? hitem

/-- A valid test suite has the shape of one. -/
theorem suiteShape_of_valid {source : Option Text} (h : validate .testSuite v source = .ok ()) : SuiteShape v := by
  have hchecks := Check.all_eq_nil_iff.mp (validate_eq_ok_iff.mp h)
  obtain ⟨htags, htag⟩ := Check.list_of_field (hchecks (.field "tags" .optionalTags) (by simp))
  obtain ⟨hpre, hpreAction⟩ := Check.list_of_field (hchecks (.field "pre-actions" .optionalTexts) (by simp))
  obtain ⟨hpost, hpostAction⟩ := Check.list_of_field (hchecks (.field "post-actions" .optionalTexts) (by simp))
  exact {
    mapping := isA_mapping_of_document (validate_eq_ok_iff.mp h)
    name := Check.isA_of_field (by decide) (hchecks (.field "name" .optionalText) (by simp))
    description := Check.isA_of_field (by decide) (hchecks (.field "description" .optionalText) (by simp))
    tags := htags
    tag := fun tag hmem => (htag tag hmem).elim fun _ hkinds => Check.kinds_eq_nil_iff.mp hkinds
    testCases := Check.isA_of_field (by decide) (hchecks (.field "test-cases" .optionalList) (by simp))
    preActions := hpre
    preAction := fun action hmem => (hpreAction action hmem).elim fun _ hkinds => Check.kinds_eq_nil_iff.mp hkinds
    postActions := hpost
    postAction := fun action hmem => (hpostAction action hmem).elim fun _ hkinds =>
      Check.kinds_eq_nil_iff.mp hkinds }

/-- A declared parameter with the shape of one violates nothing. -/
theorem ParameterShape.not_violates (h : ParameterShape v) {way : List Place} {demand : Demand}
    (hdemand : ConstrainsParameter way demand) (hpart : v.at? way = some part) :
    ¬ ∃ flaw, Violates part demand flaw := by
  obtain ⟨name, hname⟩ := h.name
  cases hdemand with
  | mapping =>
    obtain rfl := Option.some.inj hpart
    exact not_violates_of_isA h.mapping
  | named =>
    obtain rfl := Option.some.inj hpart
    rintro ⟨flaw, hflaw⟩
    cases hflaw with
    | field hentries hmissing => simp [Value.field?, hentries, hmissing] at hname
  | name =>
    obtain rfl : v.field "name" = part := Value.field_eq_of_at? hpart
    exact not_violates_of_isA ⟨.text, by simp, by simp [Value.field, hname, Value.kind?, Value.view]⟩
  | description => exact not_violates_of_isA (Value.field_eq_of_at? hpart ▸ h.description)
  | default => exact not_violates_of_isA (Value.field_eq_of_at? hpart ▸ h.default)

/-- What holds of the field and of all items of it is what is demanded of a field with a list. -/
theorem ConstrainsTexts.not_violates {way : List Place} {demand : Demand} (h : ConstrainsTexts name way demand)
    (hfield : (v.field name).IsA [.list, .null]) (hitem : ∀ item ∈ TestCase.listField v name, item.IsA [.text])
    (hpart : v.at? way = some part) : ¬ ∃ flaw, Violates part demand flaw := by
  cases h with
  | list => exact not_violates_of_isA (Value.field_eq_of_at? hpart ▸ hfield)
  | text index =>
    obtain ⟨item, hmem, hsame⟩ := Value.exists_item_of_at? hpart
    obtain rfl := Option.some.inj hsame
    exact not_violates_of_isA (hitem _ hmem)

/-- Tags of the allowed kinds violate no constraint on tags. -/
theorem ConstrainsTags.not_violates {way : List Place} {demand : Demand} (h : ConstrainsTags way demand)
    (hfield : (v.field "tags").IsA [.list, .null])
    (hitem : ∀ item ∈ TestCase.listField v "tags", item.IsA [.text, .number, .truth])
    (hpart : v.at? way = some part) : ¬ ∃ flaw, Violates part demand flaw := by
  cases h with
  | list => exact not_violates_of_isA (Value.field_eq_of_at? hpart ▸ hfield)
  | tag index =>
    obtain ⟨item, hmem, hsame⟩ := Value.exists_item_of_at? hpart
    obtain rfl := Option.some.inj hsame
    exact not_violates_of_isA (hitem _ hmem)

/-- A document with the shape of its kind violates nothing. -/
theorem DocumentKind.HasShape.not_isViolated (h : kind.HasShape v) (way : List Place) (demand : Demand)
    (part : Value) : ¬ IsViolated kind v way demand part := by
  rintro ⟨hdemand, hpart, hflaw⟩
  revert hflaw
  cases hdemand with
  | document kind =>
    obtain rfl := Option.some.inj hpart
    cases kind <;> exact not_violates_of_isA h.mapping
  | description kind => cases kind <;> exact not_violates_of_isA (Value.field_eq_of_at? hpart ▸ h.description)
  | tags hkind hdemand =>
    cases kind with
    | stepLibrary => exact absurd rfl hkind
    | _ => exact hdemand.not_violates h.tags h.tag hpart
  | steps hkind =>
    cases kind with
    | testSuite => exact absurd rfl hkind
    | _ => exact not_violates_of_isA (Value.field_eq_of_at? hpart ▸ h.steps)
  | name => exact not_violates_of_isA (Value.field_eq_of_at? hpart ▸ h.name)
  | testCases => exact not_violates_of_isA (Value.field_eq_of_at? hpart ▸ h.testCases)
  | preActions hdemand => exact hdemand.not_violates h.preActions h.preAction hpart
  | postActions hdemand => exact hdemand.not_violates h.postActions h.postAction hpart
  | parameters => exact not_violates_of_isA (Value.field_eq_of_at? hpart ▸ h.parameters)
  | parameter index hdemand =>
    obtain ⟨item, hmem, hitem⟩ := Value.exists_item_of_at? hpart
    exact (h.parameter item hmem).not_violates hdemand hitem

/-- A document is valid exactly if it has the shape of its kind. -/
theorem validate_eq_ok_iff_hasShape {source : Option Text} : validate kind v source = .ok () ↔ kind.HasShape v := by
  constructor
  · intro h
    cases kind with
    | testCase => exact caseShape_of_valid h
    | testSuite => exact suiteShape_of_valid h
    | stepLibrary => exact libraryShape_of_valid h
  · intro h
    exact validate_eq_ok_iff.mpr (problems_eq_nil_iff.mp (problems_eq_nil_iff_forall.mpr h.not_isViolated))

end Shape

/-- The fields that the rules for a kind of document name. -/
def DocumentKind.fields : DocumentKind → List String
  | testCase => ["description", "tags", "steps"]
  | testSuite => ["name", "description", "tags", "test-cases", "pre-actions", "post-actions"]
  | stepLibrary => ["description", "parameters", "steps"]

/-- Two mappings have the same entries for some names, in whatever order, and any others. -/
def SameNamed (names : List String) (v other : Value) : Prop :=
  ∃ own rest, v.entries? = some own ∧ other.entries? = some rest ∧ own.Distinct ∧ rest.Distinct ∧
    (own.named names).Perm (rest.named names)

/-- A document is changed where the rules do not look: the entries of the document, or of one of the parameters
that a library declares, come in another order, and those that the rules do not name are others. -/
inductive Rearranges : DocumentKind → Value → Value → Prop
  | document {kind : DocumentKind} {v other : Value} (h : SameNamed kind.fields v other) : Rearranges kind v other
  | parameter {v other list changed parameter replaced : Value} {front back : Entries Value}
      {before after : List Value}
      (hv : v.entries? = some (front ++ (.text "parameters", list) :: back))
      (hother : other.entries? = some (front ++ (.text "parameters", changed) :: back))
      (hlist : list.items? = some (before ++ parameter :: after))
      (hchanged : changed.items? = some (before ++ replaced :: after))
      (h : SameNamed ["name", "description", "default"] parameter replaced) : Rearranges .stepLibrary v other

/-- A problem as it is listed, whether it can be written or not. -/
def Problem.told (p : Problem) : Problem := { p with writable := true }

namespace SameNamed

variable {names : List String} {v other : Value}

/-- Values that are compared field by field are mappings. -/
theorem isA (h : SameNamed names v other) : v.IsA [.mapping] ∧ other.IsA [.mapping] := by
  obtain ⟨own, rest, hown, hrest, -⟩ := h
  exact ⟨Value.isA_of_entries hown, Value.isA_of_entries hrest⟩

/-- Values that are compared field by field agree in each field that is named. -/
theorem field?_eq (h : SameNamed names v other) {name : String} (hname : name ∈ names) :
    v.field? name = other.field? name := by
  obtain ⟨own, rest, hown, hrest, hdistinct, hdistinct', hperm⟩ := h
  rw [Value.field?, Value.field?, hown, hrest, Option.bind_some, Option.bind_some, ← Entries.find?_named hname own,
    ← Entries.find?_named hname rest]
  exact Entries.find?_eq_of_perm (hdistinct.filter _) (hdistinct'.filter _) hperm name

end SameNamed

namespace Check

variable {v other : Value} {at_ : Position}

/-- A check of a field only looks at the field. -/
theorem field_congr {name : String} (h : v.field? name = other.field? name) (check : Check) :
    field name check at_ v = field name check at_ other := by
  rw [field, field, h]

/-- The check for a parameter looks at no more than the named fields of a mapping. -/
theorem parameter_told (h : SameNamed ["name", "description", "default"] v other) (at_ : Position) :
    (parameter at_ v).map Problem.told = (parameter at_ other).map Problem.told := by
  have hrequires : (requires "name" at_ v).map Problem.told = (requires "name" at_ other).map Problem.told := by
    have hname : v.field? "name" = other.field? "name" := h.field?_eq (by simp)
    obtain ⟨own, rest, hown, hrest, -⟩ := h
    rw [Value.field?, Value.field?, hown, hrest, Option.bind_some, Option.bind_some] at hname
    simp only [requires, hown, hrest, hname]
    split <;> rfl
  simp only [parameter, all, List.flatMap_cons, List.flatMap_nil, List.append_nil, List.map_append, hrequires,
    kinds_eq_nil_iff.mpr h.isA.1, kinds_eq_nil_iff.mpr h.isA.2]
  rw [field_congr (h.field?_eq (by simp)), field_congr (h.field?_eq (by simp)), field_congr (h.field?_eq (by simp))]

/-- The check for a document looks at no more than the named fields of a mapping. -/
theorem document_eq_of_sameNamed {kind : DocumentKind} (h : SameNamed kind.fields v other) :
    document kind at_ v = document kind at_ other := by
  have hmapping : kinds [.mapping] at_ v = kinds [.mapping] at_ other := by
    rw [kinds_eq_nil_iff.mpr h.isA.1, kinds_eq_nil_iff.mpr h.isA.2]
  have hfield (name : String) (hname : name ∈ kind.fields) (check : Check) :
      field name check at_ v = field name check at_ other := field_congr (h.field?_eq hname) check
  cases kind <;> simp only [document, all, List.flatMap_cons, hmapping] <;> simp [DocumentKind.fields] at hfield <;>
    simp [hfield]

/-- The check for a step library looks at no more than the named fields of a parameter. -/
theorem document_told_of_parameter {list changed parameter replaced : Value} {front back : Entries Value}
    {before after : List Value} (hv : v.entries? = some (front ++ (.text "parameters", list) :: back))
    (hother : other.entries? = some (front ++ (.text "parameters", changed) :: back))
    (hlist : list.items? = some (before ++ parameter :: after))
    (hchanged : changed.items? = some (before ++ replaced :: after))
    (h : SameNamed ["name", "description", "default"] parameter replaced) :
    (document .stepLibrary at_ v).map Problem.told = (document .stepLibrary at_ other).map Problem.told := by
  have hmapping : kinds [.mapping] at_ v = kinds [.mapping] at_ other := by
    rw [kinds_eq_nil_iff.mpr (Value.isA_of_entries hv), kinds_eq_nil_iff.mpr (Value.isA_of_entries hother)]
  have hfield (name : String) (hname : (.text "parameters" : Scalar) ≠ .text name) (check : Check) :
      field name check at_ v = field name check at_ other := by
    refine field_congr ?_ check
    simp only [Value.field?, hv, hother, Option.bind_some, Entries.find?_append, Entries.find?, if_neg hname]
  have hitems (at_ : Position) :
      (items Check.parameter at_ list).map Problem.told = (items Check.parameter at_ changed).map Problem.told := by
    simp only [items, hlist, hchanged, List.zipIdx_append, List.zipIdx_cons, List.flatMap_append, List.flatMap_cons,
      List.map_append, parameter_told h]
  have hlists (at_ : Position) : optionalList at_ list = optionalList at_ changed := by
    rw [optionalList, kinds_eq_nil_iff.mpr (Value.isA_of_items hlist (by simp)),
      kinds_eq_nil_iff.mpr (Value.isA_of_items hchanged (by simp))]
  have hparameters : (field "parameters" (all [optionalList, items Check.parameter]) at_ v).map Problem.told =
      (field "parameters" (all [optionalList, items Check.parameter]) at_ other).map Problem.told := by
    simp only [field, Value.field?, hv, hother, Option.bind_some, Entries.find?_append, Entries.find?, if_true]
    cases front.find? "parameters" with
    | some first => rfl
    | none => simp only [Option.none_or, all, List.flatMap_cons, List.flatMap_nil, List.append_nil, List.map_append,
        hlists, hitems]
  simp only [document, all, List.flatMap_cons, List.flatMap_nil, List.append_nil, List.map_append, hmapping,
    hfield "description" (by decide), hfield "steps" (by decide)]
  rw [← hparameters]

end Check

section Rearranged

variable {kind : DocumentKind} {v other : Value}

/-- The problems of a document as they are listed come from what its check finds, as that is listed. -/
theorem map_told_problems (kind : DocumentKind) (v : Value) : (problems kind v).map Problem.told =
    ((Check.document kind ⟨[], []⟩ v).map Problem.told).mergeSort fun a b => Text.precedes a.order b.order :=
  List.map_mergeSort fun _ _ _ _ => rfl

/-- A change where the rules do not look leaves the listed problems as they are. -/
theorem Rearranges.problems_told (h : Rearranges kind v other) :
    (problems kind other).map Problem.told = (problems kind v).map Problem.told := by
  rw [map_told_problems, map_told_problems]
  cases h with
  | document h => rw [Check.document_eq_of_sameNamed h]
  | parameter hv hother hlist hchanged h => rw [Check.document_told_of_parameter hv hother hlist hchanged h]

/-- Any number of such changes leaves the list as it reads. -/
theorem problems_text_of_rearranged (h : Relation.ReflTransGen (Rearranges kind) v other) :
    (problems kind other).map Problem.text = (problems kind v).map Problem.text := by
  have htold : (problems kind other).map Problem.told = (problems kind v).map Problem.told := by
    induction h with
    | refl => rfl
    | tail _ hstep ih => rw [hstep.problems_told, ih]
  have htext (v : Value) :
      (problems kind v).map Problem.text = ((problems kind v).map Problem.told).map Problem.text := by
    rw [List.map_map]
    rfl
  rw [htext, htext, htold]

end Rearranged

section Required

variable {kind : DocumentKind} {v : Value}

/-- Nothing is no document. -/
theorem requireValid_null (kind : DocumentKind) (source : Option Text) :
    requireValid kind .null source = .error (.definition (.empty source)) := by
  have hempty : validate kind .null source = .error (.empty source) := rfl
  rw [requireValid_of_invalid hempty, if_pos (problems_writable rfl rfl kind)]

/-- A document of another shape is refused with its problems. -/
theorem validate_of_not_hasShape (hnull : v ≠ .null) (h : ¬ kind.HasShape v) (source : Option Text) :
    validate kind v source = .error (.invalid kind source (problems kind v)) := by
  have hproblems : problems kind v ≠ [] := by
    intro hnone
    have hvalid : validate kind v source = .ok () := validate_eq_ok_iff.mpr (problems_eq_nil_iff.mp hnone)
    exact h (validate_eq_ok_iff_hasShape.mp hvalid)
  rw [validate, if_neg (mt Value.isNull_iff.mp hnull)]
  split
  next hnone => exact absurd hnone hproblems
  · rfl

/-- The problems of a document can be written exactly if the parts that violate a constraint can. -/
theorem problems_writable_iff : (problems kind v).all Problem.writable = true ↔
    ∀ way demand part, IsViolated kind v way demand part → part.isWritable = true := by
  rw [List.all_eq_true]
  constructor
  · intro h way demand part hviolated
    obtain ⟨flaw, hflaw⟩ := hviolated.violates
    obtain rfl := hflaw.demand_eq
    exact h ⟨flaw, way, ruleOf way, part.isWritable⟩
      (mem_problems_iff.mpr ⟨part, hviolated, hflaw, rfl, rfl, rfl⟩)
  · intro h p hp
    obtain ⟨part, hviolated, htells⟩ := mem_problems_iff.mp hp
    rw [htells.writable]
    exact h _ _ _ hviolated

/-- A document of which a part violates a constraint and cannot be written is not refused, it ends the run. -/
theorem requireValid_of_long {way : List Place} {demand : Demand} {part : Value}
    (hviolated : IsViolated kind v way demand part) (hlong : part.isWritable = false) (source : Option Text) :
    requireValid kind v source = .error (.write .tooManyDigits) := by
  have hunwritable : ¬ (problems kind v).all Problem.writable = true := by
    intro h
    simp [problems_writable_iff.mp h way demand part hviolated] at hlong
  rw [requireValid, if_neg hunwritable]

/-- Validation accepts exactly the documents with the shape of their kind. It refuses nothing at all as empty, and
any other document with an account of its problems, one for each violated constraint, in an order that does not
depend on the order in the document. The exception is a part with an integer that is too long to write: if it
violates a constraint, the account cannot be written, and validation fails for that. -/
theorem requireValid_meaning (kind : DocumentKind) (v : Value) (source : Option Text) :
    (requireValid kind v source = .ok () ↔ kind.HasShape v) ∧
    (v = .null → requireValid kind v source = .error (.definition (.empty source))) ∧
    (v ≠ .null → ¬ kind.HasShape v →
      (∀ way demand part, IsViolated kind v way demand part → part.isWritable = true) →
      requireValid kind v source = .error (.definition (.invalid kind source (problems kind v)))) ∧
    ((∃ way demand part, IsViolated kind v way demand part ∧ part.isWritable = false) →
      requireValid kind v source = .error (.write .tooManyDigits)) ∧
    IsAccount kind v (problems kind v) ∧
    ∀ other, Relation.ReflTransGen (Rearranges kind) v other →
      (problems kind other).map Problem.text = (problems kind v).map Problem.text := by
  refine ⟨requireValid_eq_ok_iff.trans validate_eq_ok_iff_hasShape, ?_, ?_, ?_, isAccount_problems kind v,
    fun other h => problems_text_of_rearranged h⟩
  · rintro rfl
    exact requireValid_null kind source
  · intro hnull hshape hwritable
    rw [requireValid_of_invalid (validate_of_not_hasShape hnull hshape source),
      if_pos (problems_writable_iff.mpr hwritable)]
  · rintro ⟨way, demand, part, hviolated, hlong⟩
    exact requireValid_of_long hviolated hlong source

/-- A parameter without a name, whose description is no text, has two problems; that it has other fields, and in
which order, is not listed. -/
theorem requireValid_meaning_of_parameter :
    let parameter : Value := .map [(.text "default", .null), (.text "description", .int 1)]
    let replaced : Value := .map [(.text "x", .int 2), (.text "description", .int 1), (.text "default", .null)]
    let library (parameter : Value) : Value := .map [(.text "parameters", .list [parameter])]
    (problems .stepLibrary (library parameter)).length = 2 ∧
      (problems .stepLibrary (library replaced)).map Problem.text =
        (problems .stepLibrary (library parameter)).map Problem.text := by
  intro parameter replaced library
  have hrearranged : Rearranges .stepLibrary (library parameter) (library replaced) := by
    refine @Rearranges.parameter _ _ (.list [parameter]) (.list [replaced]) parameter replaced [] [] [] []
      rfl rfl rfl rfl ⟨_, _, rfl, rfl, by decide, by decide, ?_⟩
    exact List.Perm.swap _ _ _
  exact ⟨by rw [problems, List.length_mergeSort]; rfl,
    (requireValid_meaning .stepLibrary (library parameter) none).2.2.2.2.2 _ (.single hrearranged)⟩

/-- A description that is an integer with too many digits violates a constraint, and it is not reported. -/
theorem long_description_not_reported :
    let long : Value := .int (Int.pow 10 Number.digitLimit)
    let document : Value := .map [(.text "description", long)]
    IsViolated .testCase document [.field "description"] (.kinds [.text, .null]) long ∧
      ∀ source, requireValid .testCase document source = .error (.write .tooManyDigits) := by
  intro long document
  have hviolated : IsViolated .testCase document [.field "description"] (.kinds [.text, .null]) long := by
    refine ⟨.description .testCase, rfl, _, .kinds ?_⟩
    rintro ⟨kind, hkind, hlong⟩
    obtain rfl : .number = kind := Option.some.inj hlong
    simp at hkind
  exact ⟨hviolated, requireValid_of_long hviolated Number.isWritable_limit⟩

end Required

end TestPlan
