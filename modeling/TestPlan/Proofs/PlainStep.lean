import TestPlan.Proofs.Entries
import TestPlan.Step

/-!
# Steps without self-reference

What is needed about steps in which no container contains itself. A property of values that passes on to
items and to the values of entries (`Value.Inherited`) passes on from such a step to the steps that it
guards and to the parameters of its inclusion. Guarded steps are smaller than the step that guards them,
so whatever holds of a step when it holds of the steps that it guards holds of all of them
(`StepNode.plain_induction`).
-/

namespace TestPlan

namespace Value

/-- Properties that pass on from a list to its items and from a mapping to the values of its entries. -/
structure Inherited (P : Value → Prop) : Prop where
  item {items : List Value} {v : Value} : P (.list items) → v ∈ items → P v
  entry {entries : Entries Value} {key : Scalar} {v : Value} : P (.map entries) → (key, v) ∈ entries → P v

/-- What holds of every value is passed on. -/
theorem inherited_true : Inherited fun _ => True where
  item h _ := h
  entry h _ := h

/-- Two properties that are passed on are passed on together. -/
theorem Inherited.and {P Q : Value → Prop} (hP : Inherited P) (hQ : Inherited Q) :
    Inherited fun v => P v ∧ Q v where
  item h hv := ⟨hP.item h.1 hv, hQ.item h.2 hv⟩
  entry h hv := ⟨hP.entry h.1 hv, hQ.entry h.2 hv⟩

/-- Values are free of loops exactly if each of them is. -/
theorem arePlain_iff {vs : List Value} : arePlain vs = true ↔ ∀ v ∈ vs, v.isPlain = true := by
  induction vs with
  | nil => simp [arePlain]
  | cons v rest ih => simp [arePlain, ih]

/-- Entries are free of loops exactly if each of their values is. -/
theorem entriesPlain_iff {es : Entries Value} : entriesPlain es = true ↔ ∀ e ∈ es, e.2.isPlain = true := by
  induction es with
  | nil => simp [entriesPlain]
  | cons entry rest ih =>
    obtain ⟨key, v⟩ := entry
    simp [entriesPlain, ih]

/-- What is inside a value without self-reference has none either. -/
theorem inherited_isPlain : Inherited fun v => v.isPlain = true where
  item h hv := arePlain_iff.mp h _ hv
  entry h hv := entriesPlain_iff.mp h _ hv

end Value

namespace StepNode

open Value (Inherited)

/-- What a name gives is a null or the value of an entry. -/
theorem get_eq_null_or_mem (entries : Entries Value) (name : Text) :
    get entries name = .null ∨ (.text name, get entries name) ∈ entries := by
  unfold get
  cases h : entries.find? name with
  | none => exact .inl rfl
  | some v => exact .inr (Entries.mem_of_find?_eq_some h)

/-- A field that counts as present belongs to an entry. -/
theorem get_mem_of_truthy {entries : Entries Value} {name : Text} (h : (get entries name).truthy = true) :
    (.text name, get entries name) ∈ entries := by
  rcases get_eq_null_or_mem entries name with hnull | hmem
  · rw [hnull] at h
    exact absurd h (by decide)
  · exact hmem

/-- An inclusion guards no steps. -/
theorem guarded_ofInclusion (entries : Entries Value) : (ofInclusion entries).guarded = [] := by
  unfold ofInclusion
  split <;> rfl

/-- What a value without self-reference can say as a step. -/
theorem ofValue_cases (top : Bool) {v : Value} (hv : v.isPlain = true) :
    (∃ template, ofValue top v = .text template) ∨ ofValue top v = .structured v ∨
      ∃ entries, v = .map entries ∧ (ofValue top v = ofInclusion entries ∨ ofValue top v =
        .conditional (get entries "condition") (get entries "step") (get entries "steps").items?) := by
  cases v with
  | map entries =>
    simp only [ofValue, Value.view, ofEntries]
    split
    · exact .inr (.inr ⟨entries, rfl, .inl rfl⟩)
    · split
      · exact .inr (.inr ⟨entries, rfl, .inr rfl⟩)
      · split
        · exact .inr (.inr ⟨entries, rfl, .inl rfl⟩)
        · exact .inr (.inl rfl)
  | scalar s =>
    cases s with
    | text template => exact .inl ⟨template, rfl⟩
    | _ => exact .inr (.inl rfl)
  | knot g index => simp [Value.isPlain] at hv
  | _ => exact .inr (.inl rfl)

/-- A guarded step is the value of an entry of the step that guards it, or an item of such a value. -/
theorem mem_guarded_ofValue {top : Bool} {v step : Value} (hv : v.isPlain = true)
    (hstep : step ∈ (ofValue top v).guarded) :
    ∃ entries key, v = .map entries ∧
      ((key, step) ∈ entries ∨ ∃ items, (key, .list items) ∈ entries ∧ step ∈ items) := by
  rcases ofValue_cases top hv with ⟨template, h⟩ | h | ⟨entries, rfl, h | h⟩
  · rw [h] at hstep
    exact absurd hstep List.not_mem_nil
  · rw [h] at hstep
    exact absurd hstep List.not_mem_nil
  · rw [h, guarded_ofInclusion] at hstep
    exact absurd hstep List.not_mem_nil
  · rw [h, guarded] at hstep
    refine ⟨entries, ?_⟩
    split at hstep
    next htruthy =>
      obtain rfl := List.mem_singleton.mp hstep
      exact ⟨_, rfl, .inl (get_mem_of_truthy htruthy)⟩
    next =>
      rcases get_eq_null_or_mem entries "steps" with hnull | hmem
      · rw [hnull] at hstep
        exact absurd hstep List.not_mem_nil
      · have hplain := Value.inherited_isPlain.entry hv hmem
        cases hsteps : get entries "steps" with
        | list items =>
          rw [hsteps] at hstep hmem
          exact ⟨_, rfl, .inr ⟨items, hmem, hstep⟩⟩
        | knot g index => simp [hsteps, Value.isPlain] at hplain
        | _ => simp [hsteps, Value.items?, Value.view] at hstep

/-- The parameters that an inclusion gives are none or those of a mapping among the step's entries. -/
theorem given_ofValue {top : Bool} {v : Value} {name : Text} {given : Entries Value} (hv : v.isPlain = true)
    (h : ofValue top v = .inclusion name given) :
    given = [] ∨ ∃ entries key, v = .map entries ∧ (key, .map given) ∈ entries := by
  rcases ofValue_cases top hv with ⟨template, hv'⟩ | hv' | ⟨entries, rfl, hv' | hv'⟩
  · simp [hv'] at h
  · simp [hv'] at h
  · rw [hv', ofInclusion] at h
    split at h
    · obtain ⟨-, rfl⟩ := StepNode.inclusion.inj h
      rcases get_eq_null_or_mem entries "parameters" with hnull | hmem
      · exact .inl (by rw [hnull]; rfl)
      · have hplain := Value.inherited_isPlain.entry hv hmem
        cases hparameters : get entries "parameters" with
        | map given =>
          rw [hparameters] at hmem
          exact .inr ⟨entries, _, rfl, hmem⟩
        | knot g index => simp [hparameters, Value.isPlain] at hplain
        | _ => exact .inl rfl
    · simp at h
  · simp [hv'] at h

/-- A step that a value says, where the value has a property and contains no container that contains
itself. -/
def SaidBy (P : Value → Prop) (node : StepNode) : Prop :=
  ∃ top v, v.isPlain = true ∧ P v ∧ node = ofValue top v

/-- A step that a value without self-reference says. -/
abbrev IsPlain : StepNode → Prop := SaidBy fun _ => True

/-- What is passed on inside values is passed on to guarded steps. -/
theorem SaidBy.of_mem_guarded {P : Value → Prop} (hP : Inherited P) {node : StepNode} (h : node.SaidBy P)
    {step : Value} (hstep : step ∈ node.guarded) : step.isPlain = true ∧ P step := by
  obtain ⟨top, v, hv, hPv, rfl⟩ := h
  have both := Value.inherited_isPlain.and hP
  obtain ⟨entries, key, rfl, hentry | ⟨items, hentry, hitem⟩⟩ := mem_guarded_ofValue hv hstep
  · exact both.entry ⟨hv, hPv⟩ hentry
  · exact both.item (both.entry ⟨hv, hPv⟩ hentry) hitem

/-- What is passed on inside values is passed on to the parameters of an inclusion. -/
theorem SaidBy.of_mem_given {P : Value → Prop} (hP : Inherited P) {name : Text} {given : Entries Value}
    (h : (StepNode.inclusion name given).SaidBy P) {entry : Scalar × Value} (hentry : entry ∈ given) :
    P entry.2 := by
  obtain ⟨top, v, hv, hPv, hnode⟩ := h
  rcases given_ofValue hv hnode.symm with rfl | ⟨entries, key, rfl, hgiven⟩
  · simp at hentry
  · exact hP.entry (hP.entry hPv hgiven) hentry

/-- The steps of a list as what they say, at the top level of a test case or below it. -/
def ofSteps (top : Bool) (steps : List Value) : List StepNode := steps.map (ofValue top)

/-- Values that have a property say nodes that are said by such values. -/
theorem saidBy_ofSteps {P : Value → Prop} {top : Bool} {steps : List Value}
    (h : ∀ step ∈ steps, step.isPlain = true ∧ P step) : ∀ node ∈ ofSteps top steps, node.SaidBy P := by
  intro node hnode
  obtain ⟨step, hstep, rfl⟩ := List.mem_map.mp hnode
  exact ⟨top, step, (h step hstep).1, (h step hstep).2, rfl⟩

/-- The steps that a step guards, each as what it says. -/
def below (node : StepNode) : List StepNode := ofSteps false node.guarded

/-- What is passed on inside values is passed on to the steps below a step. -/
theorem SaidBy.below {P : Value → Prop} (hP : Inherited P) {node : StepNode} (h : node.SaidBy P) :
    ∀ inner ∈ node.below, inner.SaidBy P :=
  saidBy_ofSteps fun _ hstep => h.of_mem_guarded hP hstep

/-- The steps below a plain step are plain. -/
theorem IsPlain.below {node : StepNode} (h : node.IsPlain) : ∀ inner ∈ node.below, inner.IsPlain :=
  SaidBy.below Value.inherited_true h

/-- A step is one of these, or one that they guard. -/
inductive Among (node : StepNode) : List StepNode → Prop
  /-- it is one of them -/
  | here {nodes} (h : node ∈ nodes) : Among node nodes
  /-- one of them guards it -/
  | deeper {nodes outer} (h : outer ∈ nodes) (hbelow : Among node outer.below) : Among node nodes

/-- A step among some is among more. -/
theorem Among.mono {node : StepNode} {nodes more : List StepNode} (h : Among node nodes)
    (hsub : ∀ other ∈ nodes, other ∈ more) : Among node more := by
  cases h with
  | here h => exact .here (hsub _ h)
  | deeper h hbelow => exact .deeper (hsub _ h) hbelow

/-- Among steps that guard no others there are just these. -/
theorem Among.mem_of_unguarded {node : StepNode} {nodes : List StepNode} (h : Among node nodes)
    (hnodes : ∀ other ∈ nodes, other.guarded = []) : node ∈ nodes := by
  cases h with
  | here h => exact h
  | deeper houter hbelow =>
    rw [StepNode.below, hnodes _ houter] at hbelow
    cases hbelow with
    | here h => exact absurd h List.not_mem_nil
    | deeper h => exact absurd h List.not_mem_nil

/-- What is among the steps after the first is among all of them. -/
theorem Among.cons {node first : StepNode} {rest : List StepNode} (h : Among node rest) :
    Among node (first :: rest) :=
  h.mono fun _ hother => List.mem_cons_of_mem _ hother

/-- Where guarded steps take the place of the step that guards them, no step comes in. -/
theorem Among.of_below {node first : StepNode} {rest : List StepNode} (h : Among node (first.below ++ rest)) :
    Among node (first :: rest) := by
  cases h with
  | here h =>
    rcases List.mem_append.mp h with hbelow | hrest
    · exact .deeper List.mem_cons_self (.here hbelow)
    · exact .here (List.mem_cons_of_mem _ hrest)
  | deeper h hinner =>
    rcases List.mem_append.mp h with hbelow | hrest
    · exact .deeper List.mem_cons_self (.deeper hbelow hinner)
    · exact .deeper (List.mem_cons_of_mem _ hrest) hinner

/-- What is passed on inside values is passed on to all guarded steps. -/
theorem SaidBy.of_among {P : Value → Prop} (hP : Inherited P) {node : StepNode} {nodes : List StepNode}
    (h : Among node nodes) (hnodes : ∀ other ∈ nodes, other.SaidBy P) : node.SaidBy P := by
  induction h with
  | here h => exact hnodes _ h
  | deeper h _ ih => exact ih ((hnodes _ h).below hP)

/-- A guarded step is smaller than the step that guards it. -/
theorem sizeOf_lt_of_mem_guarded {top : Bool} {v step : Value} (hv : v.isPlain = true)
    (hstep : step ∈ (ofValue top v).guarded) : sizeOf step < sizeOf v := by
  obtain ⟨entries, key, rfl, hentry | ⟨items, hentry, hitem⟩⟩ := mem_guarded_ofValue hv hstep
  · have := List.sizeOf_lt_of_mem hentry
    simp only [Prod.mk.sizeOf_spec, Value.map.sizeOf_spec] at this ⊢
    omega
  · have hout := List.sizeOf_lt_of_mem hentry
    have hin := List.sizeOf_lt_of_mem hitem
    simp only [Prod.mk.sizeOf_spec, Value.map.sizeOf_spec, Value.list.sizeOf_spec] at hout hin ⊢
    omega

/-- Guarding comes to an end: what holds of a step when it holds of those that it guards holds of all. -/
theorem plain_induction {motive : StepNode → Prop}
    (step : ∀ node : StepNode, node.IsPlain → (∀ inner ∈ node.below, motive inner) → motive node)
    {node : StepNode} (h : node.IsPlain) : motive node := by
  obtain ⟨top, v, hv, -, rfl⟩ := h
  induction hsize : sizeOf v using Nat.strongRecOn generalizing top v with
  | ind size ih =>
    refine step _ ⟨top, v, hv, trivial, rfl⟩ fun inner hinner => ?_
    obtain ⟨guarded, hguarded, rfl⟩ := List.mem_map.mp hinner
    have hplain : guarded.isPlain = true :=
      (SaidBy.of_mem_guarded Value.inherited_true ⟨top, v, hv, trivial, rfl⟩ hguarded).1
    exact ih _ (hsize ▸ sizeOf_lt_of_mem_guarded hv hguarded) false guarded hplain rfl

end StepNode
end TestPlan
