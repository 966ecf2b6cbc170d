import Mathlib.Data.List.Forall2
import Mathlib.Data.List.Nodup
import TestPlan.Proofs.Definition.Shape

/-!
# Constraints on definitions

A check imposes constraints: at some places of a document it demands a kind of value, or a field of a mapping
(`Check.Imposes`). It finds one problem for each constraint that is violated, and no others. The constraints on a
document are those on its own kind together with those on its fields and on the items of its lists, so what a check
imposes is put together like the check; `Constrains` lists what it comes to for each kind of document.
-/

namespace TestPlan

/-- The part of a value at a place. -/
def Value.at? : Value → List Place → Option Value
  | v, [] => some v
  | v, .field name :: rest => (v.field? name).bind fun part => part.at? rest
  | v, .item index :: rest => (v.items?.bind fun items => items[index]?).bind fun part => part.at? rest

/-- What is demanded of a part of a document: one of some kinds, or a field if it is a mapping. -/
inductive Demand
  | kinds (allowed : List ValueKind)
  | field (name : String)

/-- A value violates a demand, and this is its flaw. -/
inductive Violates (v : Value) : Demand → Flaw → Prop
  | kinds {allowed : List ValueKind} (h : ¬ v.IsA allowed) : Violates v (.kinds allowed) (.kind v.literal allowed)
  | field {name : String} {entries : Entries Value} (hentries : v.entries? = some entries)
      (hmissing : entries.find? name = none) : Violates v (.field name) (.missing name)

/-- The demand that a flaw violates. -/
def Flaw.demand : Flaw → Demand
  | kind _ allowed => .kinds allowed
  | missing name => .field name

/-- A flaw names the demand that it violates. -/
theorem Violates.demand_eq {v : Value} {demand : Demand} {flaw : Flaw} (h : Violates v demand flaw) :
    flaw.demand = demand := by
  cases h <;> rfl

/-- The rule about a place: the way to it in the rules for documents. -/
def ruleOf (place : List Place) : List String :=
  place.flatMap fun
    | .field name => ["properties", name]
    | .item _ => ["items"]

/-- What is demanded where. -/
abbrev Constraints := List Place → Demand → Prop

namespace Constraints

/-- Nothing but one demand on a value itself. -/
def here (demand : Demand) : Constraints := fun place own => place = [] ∧ own = demand

/-- Constraints on what is one step further. -/
def below (step : Place) (constraints : Constraints) : Constraints := fun place demand =>
  ∃ rest, place = step :: rest ∧ constraints rest demand

/-- Constraints on every item. -/
def onItems (constraints : Constraints) : Constraints := fun place demand =>
  ∃ index, below (.item index) constraints place demand

/-- All constraints of some lists of them. -/
def union (parts : List Constraints) : Constraints := fun place demand => ∃ part ∈ parts, part place demand

/-- Two lists of constraints have none in common. -/
def Apart (first second : Constraints) : Prop := ∀ place demand, first place demand → ¬ second place demand

variable {constraints other : Constraints} {demand : Demand}

/-- Different demands on a value itself are different constraints. -/
theorem apart_here {first second : Demand} (h : first ≠ second) : Apart (here first) (here second) :=
  fun _ _ hfirst hsecond => h (hfirst.2.symm.trans hsecond.2)

/-- A demand on a value itself is none on its parts. -/
theorem apart_here_below (step : Place) : Apart (here demand) (below step constraints) := by
  rintro place own ⟨rfl, -⟩ ⟨rest, hrest, -⟩
  cases hrest

/-- A demand on a value itself is none on its items. -/
theorem apart_here_onItems : Apart (here demand) (onItems constraints) :=
  fun place own h ⟨index, hindex⟩ => apart_here_below (.item index) place own h hindex

/-- Constraints on different parts are different. -/
theorem apart_below {first second : Place} (h : first ≠ second) :
    Apart (below first constraints) (below second other) := by
  rintro place own ⟨rest, rfl, -⟩ ⟨more, hmore, -⟩
  exact h (List.cons.inj hmore).1

end Constraints

/-- A problem tells, from a position, that the part at the end of a way violates a demand. -/
structure Problem.Tells (p : Problem) (at_ : Position) (way : List Place) (demand : Demand) (part : Value) :
    Prop where
  flaw : Violates part demand p.flaw
  place : p.place = at_.place ++ way
  rule : p.rule = at_.rule ++ ruleOf way
  writable : p.writable = part.isWritable

/-- A problem that a value has with constraints, told from a position. -/
def HasProblem (constraints : Constraints) (at_ : Position) (v : Value) (p : Problem) : Prop :=
  ∃ way demand part, constraints way demand ∧ v.at? way = some part ∧ p.Tells at_ way demand part

/-- The position one step further. -/
def Position.step (at_ : Position) (step : Place) : Position := ⟨at_.place ++ [step], at_.rule ++ ruleOf [step]⟩

/-- A way into a value leads on from its first step. -/
theorem Value.at?_cons (v : Value) (step : Place) (rest : List Place) :
    v.at? (step :: rest) = (v.at? [step]).bind fun part => part.at? rest := by
  cases step <;> simp [at?]

namespace HasProblem

variable {constraints other : Constraints} {at_ : Position} {v : Value} {p : Problem}

/-- A problem is a problem with one constraint only. -/
theorem not_of_apart (h : HasProblem constraints at_ v p) (hapart : Constraints.Apart constraints other) :
    ¬ HasProblem other at_ v p := by
  rintro ⟨way, demand, part, hother, -, htells⟩
  obtain ⟨own, wanted, found, hown, -, hfound⟩ := h
  have hway : own = way := List.append_cancel_left (hfound.place.symm.trans htells.place)
  have hdemand : wanted = demand := hfound.flaw.demand_eq.symm.trans htells.flaw.demand_eq
  exact hapart own wanted hown (hway ▸ hdemand ▸ hother)

/-- A value has a problem with a demand on it if it violates the demand. -/
theorem here_iff {demand : Demand} : HasProblem (.here demand) at_ v p ↔
    ∃ flaw, Violates v demand flaw ∧ p = ⟨flaw, at_.place, at_.rule, v.isWritable⟩ := by
  constructor
  · rintro ⟨way, own, part, ⟨rfl, rfl⟩, hpart, hflaw, hplace, hrule, hwrite⟩
    obtain rfl := Option.some.inj hpart
    rw [List.append_nil] at hplace
    rw [ruleOf, List.flatMap_nil, List.append_nil] at hrule
    exact ⟨p.flaw, hflaw, by rw [← hplace, ← hrule, ← hwrite]⟩
  · rintro ⟨flaw, hflaw, rfl⟩
    exact ⟨[], demand, v, ⟨rfl, rfl⟩, rfl, hflaw, (List.append_nil _).symm, (List.append_nil _).symm, rfl⟩

/-- A value has the problems that the part of it one step further has. -/
theorem below_iff {step : Place} : HasProblem (.below step constraints) at_ v p ↔
    ∃ part, v.at? [step] = some part ∧ HasProblem constraints (at_.step step) part p := by
  have htells {way : List Place} {demand : Demand} {part : Value} :
      p.Tells at_ (step :: way) demand part ↔ p.Tells (at_.step step) way demand part := by
    have hplace : at_.place ++ step :: way = (at_.step step).place ++ way := by simp [Position.step]
    have hrule : at_.rule ++ ruleOf (step :: way) = (at_.step step).rule ++ ruleOf way := by
      simp [Position.step, ruleOf]
    exact ⟨fun h => ⟨h.flaw, h.place.trans hplace, h.rule.trans hrule, h.writable⟩,
      fun h => ⟨h.flaw, h.place.trans hplace.symm, h.rule.trans hrule.symm, h.writable⟩⟩
  constructor
  · rintro ⟨way, demand, part, ⟨rest, rfl, hconstraint⟩, hpart, htell⟩
    rw [Value.at?_cons] at hpart
    obtain ⟨next, hnext, hpart⟩ := Option.bind_eq_some_iff.mp hpart
    exact ⟨next, hnext, rest, demand, part, hconstraint, hpart, htells.mp htell⟩
  · rintro ⟨next, hnext, rest, demand, part, hconstraint, hpart, htell⟩
    refine ⟨step :: rest, demand, part, ⟨rest, rfl, hconstraint⟩, ?_, htells.mpr htell⟩
    rw [Value.at?_cons, hnext, Option.bind_some, hpart]

/-- A value has the problems that its items have. -/
theorem onItems_iff : HasProblem (.onItems constraints) at_ v p ↔
    ∃ index part, v.at? [.item index] = some part ∧ HasProblem constraints (at_.step (.item index)) part p := by
  have hitems : HasProblem (.onItems constraints) at_ v p ↔
      ∃ index, HasProblem (.below (.item index) constraints) at_ v p := by
    constructor
    · rintro ⟨way, demand, part, ⟨index, hconstraint⟩, hrest⟩
      exact ⟨index, way, demand, part, hconstraint, hrest⟩
    · rintro ⟨index, way, demand, part, hconstraint, hrest⟩
      exact ⟨way, demand, part, ⟨index, hconstraint⟩, hrest⟩
  simp only [hitems, below_iff]

/-- A problem is at its position or below it. -/
theorem exists_place_eq (h : HasProblem constraints at_ v p) : ∃ way, p.place = at_.place ++ way := by
  obtain ⟨way, demand, part, -, -, htells⟩ := h
  exact ⟨way, htells.place⟩

/-- A value has the problems of several lists of constraints. -/
theorem union_cons_iff {parts : List Constraints} :
    HasProblem (.union (constraints :: parts)) at_ v p ↔
      HasProblem constraints at_ v p ∨ HasProblem (.union parts) at_ v p := by
  simp only [HasProblem, Constraints.union, List.exists_mem_cons_iff, or_and_right, exists_or]

end HasProblem

namespace Check

variable {check : Check} {constraints other : Constraints}

/-- A check imposes constraints: it finds exactly the problems with them, and each of them once. -/
structure Imposes (check : Check) (constraints : Constraints) : Prop where
  mem_iff : ∀ at_ v p, p ∈ check at_ v ↔ HasProblem constraints at_ v p
  nodup : ∀ at_ v, (check at_ v).Nodup

/-- A check for kinds imposes just that demand on the value. -/
theorem imposes_kinds (allowed : List ValueKind) : (kinds allowed).Imposes (.here (.kinds allowed)) where
  mem_iff at_ v p := by
    rw [HasProblem.here_iff]
    by_cases h : v.IsA allowed
    · rw [kinds_eq_nil_iff.mpr h]
      refine iff_of_false List.not_mem_nil ?_
      rintro ⟨flaw, hflaw, -⟩
      cases hflaw with
      | kinds hnot => exact hnot h
    · have hfound : kinds allowed at_ v = [⟨.kind v.literal allowed, at_.place, at_.rule, v.isWritable⟩] := by
        rw [kinds]
        split
        next hany =>
          have hnone : kinds allowed at_ v = [] := if_pos hany
          exact absurd (kinds_eq_nil_iff.mp hnone) h
        · rfl
      rw [hfound, List.mem_singleton]
      refine ⟨fun hp => ⟨_, .kinds h, hp⟩, ?_⟩
      rintro ⟨flaw, ⟨-⟩, hp⟩
      exact hp
  nodup at_ v := by
    rw [kinds]
    split <;> simp

/-- A check for a field that has to be there imposes just that demand on the value. -/
theorem imposes_requires (name : String) : (requires name).Imposes (.here (.field name)) where
  mem_iff at_ v p := by
    rw [HasProblem.here_iff, requires]
    constructor
    · intro hp
      split at hp
      next entries hentries =>
        split at hp
        · simp at hp
        next hmissing =>
          exact ⟨_, .field hentries (Option.not_isSome_iff_eq_none.mp hmissing), List.mem_singleton.mp hp⟩
      · simp at hp
    · rintro ⟨flaw, hflaw, rfl⟩
      cases hflaw with
      | field hentries hmissing => simp [hentries, hmissing]
  nodup at_ v := by
    rw [requires]
    split
    · split <;> simp
    · simp

/-- A check of a field imposes on the field what it is made of. -/
theorem Imposes.field (h : check.Imposes constraints) (name : String) :
    (Check.field name check).Imposes (.below (.field name) constraints) where
  mem_iff at_ v p := by
    have hstep : v.at? [.field name] = v.field? name := by simp [Value.at?]
    rw [HasProblem.below_iff, hstep, Check.field]
    cases v.field? name with
    | none => simp
    | some part =>
      have hmem := h.mem_iff (at_.step (.field name)) part p
      simp only [Option.some.injEq, exists_eq_left']
      exact hmem
  nodup at_ v := by
    rw [Check.field]
    split
    · exact h.nodup _ _
    · simp

/-- A check of all items imposes on each item what it is made of. -/
theorem Imposes.items (h : check.Imposes constraints) : (Check.items check).Imposes (.onItems constraints) where
  mem_iff at_ v p := by
    have hstep (index : Nat) : v.at? [.item index] = v.items?.bind fun items => items[index]? := by
      simp [Value.at?]
    rw [HasProblem.onItems_iff, Check.items]
    cases hitems : v.items? with
    | none => simp [hstep, hitems]
    | some parts =>
      have hmem (index : Nat) (part : Value) := h.mem_iff (at_.step (.item index)) part p
      simp only [List.mem_flatMap, Prod.exists, List.mk_mem_zipIdx_iff_getElem?, hstep, hitems, Option.bind_some]
      constructor
      · rintro ⟨part, index, hpart, hp⟩
        exact ⟨index, part, hpart, (hmem index part).mp hp⟩
      · rintro ⟨index, part, hpart, hp⟩
        exact ⟨part, index, hpart, (hmem index part).mpr hp⟩
  nodup at_ v := by
    rw [Check.items]
    split
    next parts _ =>
      have hindices : parts.zipIdx.Pairwise fun first second => first.2 ≠ second.2 := by
        rw [← List.pairwise_map, List.zipIdx_map_snd]
        exact List.nodup_range'
      refine List.nodup_flatMap.mpr
        ⟨fun part _ => h.nodup _ _, hindices.imp fun {first second} hne p hp hother => ?_⟩
      -- A problem of an item has the item's index in its place.
      obtain ⟨way, hway⟩ := ((h.mem_iff (at_.step (.item first.2)) _ p).mp hp).exists_place_eq
      obtain ⟨more, hmore⟩ := ((h.mem_iff (at_.step (.item second.2)) _ p).mp hother).exists_place_eq
      have hsame := hway.symm.trans hmore
      simp only [Position.step, List.append_assoc, List.singleton_append] at hsame
      have hitem := (List.cons.inj (List.append_cancel_left hsame)).1
      exact hne (Place.item.inj hitem)
    · simp

/-- Checks for constraints that are apart impose all of them. -/
theorem imposes_all {checks : List Check} {parts : List Constraints} (h : List.Forall₂ Imposes checks parts)
    (hapart : parts.Pairwise Constraints.Apart) : (all checks).Imposes (.union parts) := by
  induction h with
  | nil => exact ⟨fun at_ v p => by simp [all, HasProblem, Constraints.union], fun at_ v => List.nodup_nil⟩
  | @cons check part checks parts hcheck _ ih =>
    obtain ⟨hfirst, hrest⟩ := List.pairwise_cons.mp hapart
    have hall := ih hrest
    have hcons (at_ : Position) (v : Value) : all (check :: checks) at_ v = check at_ v ++ all checks at_ v :=
      List.flatMap_cons
    refine ⟨fun at_ v p => ?_, fun at_ v => ?_⟩
    · rw [hcons, List.mem_append, hcheck.mem_iff, hall.mem_iff, HasProblem.union_cons_iff]
    · rw [hcons, List.nodup_append']
      refine ⟨hcheck.nodup at_ v, hall.nodup at_ v, fun p hp hother => ?_⟩
      refine ((hcheck.mem_iff at_ v p).mp hp).not_of_apart ?_ ((hall.mem_iff at_ v p).mp hother)
      rintro way demand hdemand ⟨other, hmem, hconstraint⟩
      exact hfirst other hmem way demand hdemand hconstraint

/-- A check imposes constraints in any form that they are given. -/
theorem Imposes.congr (h : check.Imposes constraints)
    (hsame : ∀ way demand, constraints way demand ↔ other way demand) :
    check.Imposes other := by
  obtain rfl : constraints = other := by
    funext way demand
    exact propext (hsame way demand)
  exact h

end Check

/-- What is demanded of a declared parameter. -/
inductive ConstrainsParameter : Constraints
  | mapping : ConstrainsParameter [] (.kinds [.mapping])
  | named : ConstrainsParameter [] (.field "name")
  | name : ConstrainsParameter [.field "name"] (.kinds [.text])
  | description : ConstrainsParameter [.field "description"] (.kinds [.text, .null])
  | default : ConstrainsParameter [.field "default"] (.kinds [.text, .number, .truth, .null])

/-- What is demanded of a field with a list of texts. -/
inductive ConstrainsTexts (name : String) : Constraints
  | list : ConstrainsTexts name [.field name] (.kinds [.list, .null])
  | text (index : Nat) : ConstrainsTexts name [.field name, .item index] (.kinds [.text])

/-- What is demanded of the tags of a document. -/
inductive ConstrainsTags : Constraints
  | list : ConstrainsTags [.field "tags"] (.kinds [.list, .null])
  | tag (index : Nat) : ConstrainsTags [.field "tags", .item index] (.kinds [.text, .number, .truth])

/-- What is demanded of the documents of a kind. -/
inductive Constrains : DocumentKind → Constraints
  | document (kind : DocumentKind) : Constrains kind [] (.kinds [.mapping])
  | description (kind : DocumentKind) : Constrains kind [.field "description"] (.kinds [.text, .null])
  | tags {kind : DocumentKind} (hkind : kind ≠ .stepLibrary) {way : List Place} {demand : Demand}
      (h : ConstrainsTags way demand) : Constrains kind way demand
  | steps {kind : DocumentKind} (hkind : kind ≠ .testSuite) :
      Constrains kind [.field "steps"] (.kinds [.list, .null])
  | name : Constrains .testSuite [.field "name"] (.kinds [.text, .null])
  | testCases : Constrains .testSuite [.field "test-cases"] (.kinds [.list, .null])
  | preActions {way : List Place} {demand : Demand} (h : ConstrainsTexts "pre-actions" way demand) :
      Constrains .testSuite way demand
  | postActions {way : List Place} {demand : Demand} (h : ConstrainsTexts "post-actions" way demand) :
      Constrains .testSuite way demand
  | parameters : Constrains .stepLibrary [.field "parameters"] (.kinds [.list, .null])
  | parameter (index : Nat) {way : List Place} {demand : Demand} (h : ConstrainsParameter way demand) :
      Constrains .stepLibrary (.field "parameters" :: .item index :: way) demand

namespace Check

open Constraints

/-- A field that may be null is constrained in its kind. -/
theorem imposes_kind (name : String) (allowed : List ValueKind) :
    (field name (kinds allowed)).Imposes (below (.field name) (here (.kinds allowed))) :=
  (imposes_kinds allowed).field name

/-- The items of a list field are constrained, and the field itself is. -/
theorem imposes_list (name : String) {check : Check} {constraints : Constraints} (h : check.Imposes constraints) :
    (field name (all [optionalList, items check])).Imposes
      (below (.field name) (union [here (.kinds [.list, .null]), onItems constraints])) :=
  Imposes.field (imposes_all (.cons (imposes_kinds _) (.cons h.items .nil)) (by simp [apart_here_onItems])) name

/-- The check for a parameter imposes what is demanded of one. -/
theorem imposes_parameter : parameter.Imposes ConstrainsParameter := by
  have hall := imposes_all (.cons (imposes_kinds [.mapping]) (.cons (imposes_requires "name")
    (.cons (imposes_kind "name" [.text]) (.cons (imposes_kind "description" [.text, .null])
      (.cons (imposes_kind "default" [.text, .number, .truth, .null]) .nil)))))
    (by simp [apart_here, apart_here_below, apart_below])
  refine hall.congr fun way demand => ?_
  simp only [union, List.mem_cons, List.not_mem_nil, or_false, exists_eq_or_imp, exists_eq_left, here, below]
  constructor
  · rintro (⟨rfl, rfl⟩ | ⟨rfl, rfl⟩ | ⟨_, rfl, rfl, rfl⟩ | ⟨_, rfl, rfl, rfl⟩ | ⟨_, rfl, rfl, rfl⟩)
    · exact .mapping
    · exact .named
    · exact .name
    · exact .description
    · exact .default
  · intro h
    cases h <;> simp

/-- The check for a document imposes what is demanded of its kind. -/
theorem imposes_document (kind : DocumentKind) : (document kind).Imposes (Constrains kind) := by
  have htags : (field "tags" optionalTags).Imposes _ := imposes_list "tags" (imposes_kinds [.text, .number, .truth])
  have htexts (name : String) : (field name optionalTexts).Imposes _ := imposes_list name (imposes_kinds [.text])
  have hdescription := imposes_kind "description" [.text, .null]
  cases kind with
  | testCase =>
    have hall := imposes_all (.cons (imposes_kinds [.mapping]) (.cons hdescription (.cons htags
      (.cons (imposes_kind "steps" [.list, .null]) .nil)))) (by simp [apart_here_below, apart_below])
    refine hall.congr fun way demand => ?_
    simp only [union, List.mem_cons, List.not_mem_nil, or_false, exists_eq_or_imp, exists_eq_left, here, below,
      onItems]
    constructor
    · rintro (⟨rfl, rfl⟩ | ⟨_, rfl, rfl, rfl⟩ | ⟨_, rfl, ⟨rfl, rfl⟩ | ⟨index, _, rfl, rfl, rfl⟩⟩ |
      ⟨_, rfl, rfl, rfl⟩)
      · exact .document _
      · exact .description _
      · exact .tags (by decide) .list
      · exact .tags (by decide) (.tag index)
      · exact .steps (by decide)
    · intro h
      cases h with
      | tags _ h => cases h <;> simp
      | _ => simp
  | testSuite =>
    have hall := imposes_all (.cons (imposes_kinds [.mapping]) (.cons (imposes_kind "name" [.text, .null])
      (.cons hdescription (.cons htags (.cons (imposes_kind "test-cases" [.list, .null])
        (.cons (htexts "pre-actions") (.cons (htexts "post-actions") .nil)))))))
      (by simp [apart_here_below, apart_below])
    refine hall.congr fun way demand => ?_
    simp only [union, List.mem_cons, List.not_mem_nil, or_false, exists_eq_or_imp, exists_eq_left, here, below,
      onItems]
    constructor
    · rintro (⟨rfl, rfl⟩ | ⟨_, rfl, rfl, rfl⟩ | ⟨_, rfl, rfl, rfl⟩ |
      ⟨_, rfl, ⟨rfl, rfl⟩ | ⟨index, _, rfl, rfl, rfl⟩⟩ |
        ⟨_, rfl, rfl, rfl⟩ | ⟨_, rfl, ⟨rfl, rfl⟩ | ⟨index, _, rfl, rfl, rfl⟩⟩ |
        ⟨_, rfl, ⟨rfl, rfl⟩ | ⟨index, _, rfl, rfl, rfl⟩⟩)
      · exact .document _
      · exact .name
      · exact .description _
      · exact .tags (by decide) .list
      · exact .tags (by decide) (.tag index)
      · exact .testCases
      · exact .preActions .list
      · exact .preActions (.text index)
      · exact .postActions .list
      · exact .postActions (.text index)
    · intro h
      cases h with
      | tags _ h => cases h <;> simp
      | preActions h => cases h <;> simp
      | postActions h => cases h <;> simp
      | steps h => exact absurd rfl h
      | _ => simp
  | stepLibrary =>
    have hall := imposes_all (.cons (imposes_kinds [.mapping]) (.cons hdescription
      (.cons (imposes_list "parameters" imposes_parameter) (.cons (imposes_kind "steps" [.list, .null]) .nil))))
      (by simp [apart_here_below, apart_below])
    refine hall.congr fun way demand => ?_
    simp only [union, List.mem_cons, List.not_mem_nil, or_false, exists_eq_or_imp, exists_eq_left, here, below,
      onItems]
    constructor
    · rintro (⟨rfl, rfl⟩ | ⟨_, rfl, rfl, rfl⟩ | ⟨_, rfl, ⟨rfl, rfl⟩ | ⟨index, way, rfl, h⟩⟩ | ⟨_, rfl, rfl, rfl⟩)
      · exact .document _
      · exact .description _
      · exact .parameters
      · exact .parameter index h
      · exact .steps (by decide)
    · intro h
      cases h with
      | tags h => exact absurd rfl h
      | parameter index h => simp [h]
      | _ => simp

end Check
end TestPlan
