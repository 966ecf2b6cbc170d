import TestPlan.Proofs.Expansion.Precedence

/-!
# Bound names hide the environment

Steps see values only as texts. Two scopes in which every name reads as the same text (`Scope.ReadsAs`) fill a
template alike and decide a condition alike, so a step asks for the same in both.

Parameters may be replaced by others that bind the same names to the same texts, and the environment may say
anything of the names that they bind (`Scope.BindsAs`). Entering a library keeps this (`Scope.BindsAs.enter`): what
it binds in addition is bound alike, and no name that was bound becomes free. Hence the whole expansion is the same
(`Expander.expand_of_bindsAs`).
-/

namespace TestPlan

/-- What a value reads as: the text that it contributes, if it can be written. -/
def Value.reading (v : Value) : Except WriteFault Text := v.write parameterText

/-- Values read alike if both can be written, with one text, or neither can. -/
theorem Value.reading_eq_iff {v w : Value} : v.reading = w.reading ↔
    v.isWritable = w.isWritable ∧ (v.isWritable = true → v.parameterText = w.parameterText) := by
  unfold reading write
  cases v.isWritable <;> cases w.isWritable <;> simp

/-- What a text reads as among entries. -/
def Entries.reading? (entries : Entries Value) (name : Text) : Option (Except WriteFault Text) :=
  (entries.find? name).map Value.reading

namespace Scope

/-- What a name reads as in a scope. -/
def reading? (scope : Scope) (name : Text) : Option (Except WriteFault Text) :=
  (scope.value? name).map Value.reading

/-- Every name reads in one scope as it does in the other. -/
def ReadsAs (scope other : Scope) : Prop := ∀ name, scope.reading? name = other.reading? name

/-- A name reads as its parameter if there is one, otherwise as its variable. -/
theorem reading?_eq (scope : Scope) (name : Text) :
    scope.reading? name = (scope.parameters.reading? name).or (scope.environment.reading? name) :=
  Option.map_or

namespace ReadsAs

variable {scope other : Scope}

/-- A name is bound in both scopes, to values that read alike, or in neither. -/
theorem cases (h : scope.ReadsAs other) (name : Text) :
    (scope.value? name = none ∧ other.value? name = none) ∨
      ∃ v w, scope.value? name = some v ∧ other.value? name = some w ∧ v.reading = w.reading := by
  have hname := h name
  unfold reading? at hname
  cases hv : scope.value? name with
  | none => exact .inl ⟨rfl, by simpa [hv] using hname.symm⟩
  | some v =>
    rw [hv, Option.map_some, eq_comm, Option.map_eq_some_iff] at hname
    obtain ⟨w, hw, hreading⟩ := hname
    exact .inr ⟨v, w, rfl, hw, hreading.symm⟩

/-- A piece of a template can be replaced in both scopes or in neither, is bound in both or in neither, and becomes
the same if it can be replaced. -/
theorem piece (h : scope.ReadsAs other) (piece : Template.Piece) :
    piece.isWritable scope = piece.isWritable other ∧ piece.unbound? scope = piece.unbound? other ∧
      (piece.isWritable scope = true → piece.fill scope = piece.fill other) := by
  cases piece with
  | symbol s => exact ⟨rfl, rfl, fun _ => rfl⟩
  | placeholder body =>
    simp only [Template.Piece.isWritable, Template.Piece.unbound?, Template.Piece.fill, isWritable, lookup]
    rcases h.cases (Template.nameOf body) with ⟨hv, hw⟩ | ⟨v, w, hv, hw, hreading⟩
    · simp [hv, hw]
    · obtain ⟨hwritable, htext⟩ := Value.reading_eq_iff.mp hreading
      simp only [hv, hw, Option.all_some, Option.map_some, Option.getD_some]
      exact ⟨hwritable, rfl, htext⟩

/-- A template is filled in both scopes with one text, or fails in both after the same messages. -/
theorem complete {ε : Type} (h : scope.ReadsAs other) (fault : WriteFault → ε) (template : Text) :
    Template.complete fault scope template = Template.complete fault other template := by
  have hwritable : Template.Piece.isWritable scope = Template.Piece.isWritable other :=
    funext fun piece => (h.piece piece).1
  have hunbound : Template.Piece.unbound? scope = Template.Piece.unbound? other :=
    funext fun piece => (h.piece piece).2.1
  simp only [Template.complete, Template.fill, ← hwritable, ← hunbound]
  split
  next hall =>
    have hfill : (Template.pieces template).flatMap (Template.Piece.fill scope) =
        (Template.pieces template).flatMap (Template.Piece.fill other) :=
      List.flatMap_congr fun piece hpiece => (h.piece piece).2.2 (List.all_eq_true.mp hall piece hpiece)
    rw [hfill]
  · rfl

/-- A condition holds in both scopes or in neither. -/
theorem evaluate {ε : Type} (h : scope.ReadsAs other) (fault : WriteFault → ε) (condition : Value) :
    Condition.evaluate fault scope condition = Condition.evaluate fault other condition := by
  have htext (text : Text) : (Condition.evaluateText scope text : Run ε Bool) =
      Condition.evaluateText other text := by
    rw [Condition.evaluateText, Condition.evaluateText, h.complete]
  unfold Condition.evaluate
  split <;> simp only [htext]

/-- A step asks for the same in both scopes. -/
theorem action (h : scope.ReadsAs other) (node : StepNode) : node.action scope = node.action other := by
  have hfilled (template : Text) : Action.writeFilled scope template = Action.writeFilled other template := by
    rw [Action.writeFilled, Action.writeFilled, h.complete]
  cases node with
  | text template => exact hfilled template
  | conditional condition step steps => rw [StepNode.action, StepNode.action, h.evaluate]
  | inclusion library given => rfl
  | nameless => rfl
  | structured v => simp only [StepNode.action, hfilled]

end ReadsAs

/-- The parameters of one scope bind the names that those of the other bind, to the same texts, and all other names
read alike in the environments. -/
structure BindsAs (scope other : Scope) : Prop where
  bound : ∀ name, scope.parameters.reading? name = other.parameters.reading? name
  free : ∀ name, scope.parameters.find? name = none →
    scope.environment.reading? name = other.environment.reading? name

namespace BindsAs

variable {scope other : Scope}

/-- What the environments say of bound names does not matter. -/
theorem readsAs (h : scope.BindsAs other) : scope.ReadsAs other := by
  intro name
  rw [reading?_eq, reading?_eq, ← h.bound]
  cases hbound : scope.parameters.find? name with
  | none => rw [h.free name hbound]
  | some v => simp [Entries.reading?, hbound]

end BindsAs
end Scope

/-- The scopes of a library are alike if those of its callers are. -/
theorem Scope.BindsAs.enter {p q environment other : Entries Value} (h : BindsAs ⟨p, environment⟩ ⟨q, other⟩)
    (hp : p.Distinct) (hq : q.Distinct) (library : StepLibrary) (given : Entries Value) :
    BindsAs ⟨Expander.enterWith library p given, environment⟩ ⟨Expander.enterWith library q given, other⟩ where
  bound name := by
    have hcaller : (p.find? name).map Value.reading = (q.find? name).map Value.reading := h.bound name
    simp only [Entries.reading?, Expander.find?_enterWith hp, Expander.find?_enterWith hq, Option.map_or, hcaller]
  free name hfree := by
    rw [Expander.find?_enterWith hp, Option.or_eq_none_iff, Option.or_eq_none_iff] at hfree
    exact h.free name hfree.2.1

/-- Steps are carried out alike where names read alike and inclusions come to the same. -/
theorem StepContext.interpret_congr {c e : StepContext Failure} (hc : c.failure = .step) (he : e.failure = .step)
    (hscope : c.scope.ReadsAs e.scope) (hopen : c.openLibrary = e.openLibrary) {nodes : List StepNode}
    (hnodes : ∀ node ∈ nodes, node.IsPlain) : Run.gather c.interpret nodes = Run.gather e.interpret nodes := by
  refine Run.gather_congr fun node hnode => ?_
  refine StepNode.plain_induction (motive := fun node => c.interpret node = e.interpret node) ?_ (hnodes node hnode)
  intro node hplain hbelow
  have hguarded : ∀ step ∈ node.guarded, step.isPlain = true := fun step hstep =>
    (hplain.of_mem_guarded Value.inherited_true hstep).1
  have hall : c.runAll node.guarded = e.runAll node.guarded := by
    rw [runAll_eq_gather_interpret hc hguarded, runAll_eq_gather_interpret he hguarded]
    exact Run.gather_congr hbelow
  rw [interpret, interpret, hscope.action, hall, hopen]

namespace Expander

variable {table : LibraryTable} {environment other p q : Entries Value} {limit : Option Int}

/-- A library comes to the same under parameters that bind the same texts. -/
theorem openLibrary_of_bindsAs (htable : table.IsPlain) (h : Scope.BindsAs ⟨p, environment⟩ ⟨q, other⟩)
    (hp : p.Distinct) (hq : q.Distinct) (chain : IncludeChain) (name : Text) (given : Entries Value) :
    (mk table environment limit).openLibrary chain p name given =
      (mk table other limit).openLibrary chain q name given := by
  induction hsize : (table.outside chain).length using Nat.strongRecOn generalizing chain p q name given with
  | ind size ih =>
    cases hlibrary : table.get? name with
    | none => rw [openLibrary_of_unknown hlibrary, openLibrary_of_unknown hlibrary]
    | some library =>
      cases hpush : chain.push name with
      | error e => rw [openLibrary_of_refused hlibrary hpush, openLibrary_of_refused hlibrary hpush]
      | ok longer =>
        have hless := LibraryTable.outside_push_lt (LibraryTable.mem_names_of_get? hlibrary) hpush
        have hinside := h.enter hp hq library given
        rw [openLibrary_of_room htable hlibrary hpush, openLibrary_of_room htable hlibrary hpush]
        refine StepContext.interpret_congr rfl rfl hinside.readsAs ?_ (htable.nodes hlibrary)
        funext inner call
        exact ih _ (hsize ▸ hless) hinside (distinct_enterWith library p given) (distinct_enterWith library q given)
          longer inner call rfl

/-- An outermost inclusion comes to the same under parameters that bind the same texts. -/
theorem openOutermost_of_bindsAs (htable : table.IsPlain) (h : Scope.BindsAs ⟨p, environment⟩ ⟨q, other⟩)
    (hp : p.Distinct) (hq : q.Distinct) :
    (mk table environment limit).openOutermost p = (mk table other limit).openOutermost q := by
  funext name given
  simp only [openOutermost]
  split
  · rfl
  · exact openLibrary_of_bindsAs htable h hp hq _ name given

/-- Bound names hide the environment, however deep an inclusion lies, and of what they are bound to only the texts
matter: expansion is the same, with the same messages, under parameters that bind the same names to the same texts
and environments that agree on all other names. -/
theorem expand_of_bindsAs (htable : table.IsPlain) (h : Scope.BindsAs ⟨p, environment⟩ ⟨q, other⟩)
    (hp : p.Distinct) (hq : q.Distinct) {steps : List Value} (hsteps : ∀ step ∈ steps, step.isPlain = true) :
    (mk table environment limit).expand p steps = (mk table other limit).expand q steps := by
  rw [expand, expand, StepContext.gather_runTop_eq_gather_interpret rfl hsteps,
    StepContext.gather_runTop_eq_gather_interpret rfl hsteps]
  exact StepContext.interpret_congr rfl rfl h.readsAs (openOutermost_of_bindsAs htable h hp hq)
    (StepNode.saidBy_ofSteps fun step hstep => ⟨hsteps step hstep, trivial⟩)

/-- Two inclusions deep a truth value still reads as its text does and hides the variable with its name. -/
theorem expand_of_bindsAs_of_nested :
    let inner : StepLibrary := ⟨"inner", [], [], [.text "\x7b\x7bon\x7d\x7d at \x7b\x7bhost\x7d\x7d"]⟩
    let outer : StepLibrary := ⟨"outer", [], [], [.map [(.text "include", .text "inner")]]⟩
    let hidden : Entries Value := [(.text "host", .text "h"), (.text "on", .text "never")]
    let x (environment : Entries Value) : Expander := ⟨[inner, outer], environment, some 2⟩
    let steps : List Value := [.map [(.text "include", .text "outer")]]
    (x hidden).expand [(.text "on", .scalar (.bool true))] steps =
        (x [(.text "host", .text "h")]).expand [(.text "on", .text "true")] steps ∧
      ((x hidden).expand [(.text "on", .scalar (.bool true))] steps).outcome = .ok ["true at h"] := by
  intro inner outer hidden x steps
  have htable : LibraryTable.IsPlain [inner, outer] := by
    simp [inner, outer, LibraryTable.IsPlain, Value.isPlain, Value.entriesPlain]
  have hsteps : ∀ step ∈ steps, step.isPlain = true := by simp [steps, Value.isPlain, Value.entriesPlain]
  have hbinds : Scope.BindsAs ⟨[(.text "on", .scalar (.bool true))], hidden⟩
      ⟨[(.text "on", .text "true")], [(.text "host", .text "h")]⟩ := by
    refine ⟨fun name => ?_, fun name hfree => ?_⟩
    · by_cases hon : Scalar.text "on" = .text name
      · simp only [Entries.reading?, Entries.find?, if_pos hon]
        decide
      · simp only [Entries.reading?, Entries.find?, if_neg hon]
    · have hon : Scalar.text "on" ≠ .text name := fun hon => by simp [Entries.find?, hon] at hfree
      simp only [hidden, Entries.reading?, Entries.find?, if_neg hon]
  exact ⟨expand_of_bindsAs htable hbinds (by decide) (by decide) hsteps, by decide +kernel⟩

end Expander
end TestPlan
