import TestPlan.Proofs.Expansion.Action

/-!
# The equations of expansion

Expanding a list of steps on a chain (`Expander.expandNodes`) obeys one equation for each thing that its
first step may ask for. What holds of lists of steps by way of these equations holds of all of them
(`Expander.expansion_induction`): guarding comes to an end, and so do the libraries outside the chain.

`Expands` has these equations as its rules. It relates steps without self-reference to exactly one run,
the one that expanding them gives (`Expander.expands_iff`), and later proofs follow its rules.
-/

namespace TestPlan

/-- No step of a library has a container that contains itself. -/
def LibraryTable.IsPlain (table : LibraryTable) : Prop :=
  ∀ library ∈ table, ∀ step ∈ library.steps, step.isPlain = true

/-- A library that is found is one of the table. -/
theorem LibraryTable.mem_of_get? {table : LibraryTable} {name : Text} {library : StepLibrary}
    (h : table.get? name = some library) : library ∈ table := List.mem_of_find?_eq_some h

/-- A library is found under its own name. -/
theorem LibraryTable.name_of_get? {table : LibraryTable} {name : Text} {library : StepLibrary}
    (h : table.get? name = some library) : library.name = name := by
  simpa using List.find?_some h

/-- The warning about an unknown library. -/
def missingWarning (name : Text) : Message := ⟨.warning, "Step library '" ++ name ++ "' not found"⟩

/-- The steps of a library as it says them. -/
def StepLibrary.nodes (library : StepLibrary) : List StepNode := StepNode.ofSteps false library.steps

/-- The steps of a library from a plain table are plain. -/
theorem LibraryTable.IsPlain.nodes {table : LibraryTable} (htable : table.IsPlain) {name : Text}
    {library : StepLibrary} (h : table.get? name = some library) : ∀ node ∈ library.nodes, node.IsPlain :=
  StepNode.saidBy_ofSteps fun step hstep => ⟨htable library (LibraryTable.mem_of_get? h) step hstep, trivial⟩

namespace Expander

variable {x : Expander} {chain longer : IncludeChain} {p given : Entries Value} {name : Text}
  {library : StepLibrary}

/-- The names that steps see under parameters. -/
def scope (x : Expander) (p : Entries Value) : Scope := ⟨p, x.environment⟩

/-- What steps on a chain depend on. -/
def inside (x : Expander) (chain : IncludeChain) (p : Entries Value) : StepContext Failure :=
  ⟨x.scope p, x.openLibrary chain p, .step⟩

/-- The instructions of steps on a chain, under parameters. -/
def expandNodes (x : Expander) (chain : IncludeChain) (p : Entries Value) (nodes : List StepNode) :
    Run Failure (List Text) :=
  Run.gather (x.inside chain p).interpret nodes

/-- The parameters that the steps of a library see when it is called. -/
def enterWith (library : StepLibrary) (p given : Entries Value) : Entries Value :=
  library.resolveParameters (p.overlay given)

/-- An unknown library is reported, and a placeholder stands for it. -/
theorem openLibrary_of_unknown (h : x.libraries.get? name = none) :
    x.openLibrary chain p name given = ⟨[missingWarning name], .ok [missingLibrary name]⟩ := by
  rw [openLibrary]
  split
  · rfl
  next library hlibrary => exact absurd (h.symm.trans hlibrary) (by simp)

/-- A library that the chain refuses is not entered. -/
theorem openLibrary_of_refused {e : IncludeError} (h : x.libraries.get? name = some library)
    (hpush : chain.push name = .error e) :
    x.openLibrary chain p name given = Run.fail (.inclusion e) := by
  rw [openLibrary]
  split
  next hnone => exact absurd (hnone.symm.trans h) (by simp)
  next =>
    split
    next other hother =>
      obtain rfl : other = e := Except.error.inj (hother.symm.trans hpush)
      rfl
    next longer hlonger => exact absurd (hlonger.symm.trans hpush) (by simp)

/-- A library that may be entered stands for its steps, on the longer chain and under its own parameters. -/
theorem openLibrary_of_room (htable : x.libraries.IsPlain) (h : x.libraries.get? name = some library)
    (hpush : chain.push name = .ok longer) :
    x.openLibrary chain p name given = x.expandNodes longer (enterWith library p given) library.nodes := by
  rw [openLibrary]
  split
  next hnone => exact absurd (hnone.symm.trans h) (by simp)
  next other hother =>
    obtain rfl : other = library := Option.some.inj (hother.symm.trans h)
    split
    next e he => exact absurd (he.symm.trans hpush) (by simp)
    next between hbetween =>
      obtain rfl : between = longer := Except.ok.inj (hbetween.symm.trans hpush)
      exact StepContext.runAll_eq_gather_interpret rfl (htable other (LibraryTable.mem_of_get? h))

variable {node : StepNode} {rest : List StepNode}

/-- A step that cannot be looked at ends the expansion. -/
theorem expandNodes_of_fault {e : Failure} (h : (node.action (x.scope p)).outcome = .error e) :
    x.expandNodes chain p (node :: rest) = ⟨(node.action (x.scope p)).log, .error e⟩ := by
  have hnode : (x.inside chain p).interpret node = ⟨(node.action (x.scope p)).log, .error e⟩ :=
    Run.bind_of_error h _
  have he : ((x.inside chain p).interpret node).outcome = .error e := by rw [hnode]
  rw [expandNodes, Run.gather_cons_of_error he, hnode]

/-- Lines that stand for a step come before those of the steps after it. -/
theorem expandNodes_of_write {lines : List Text}
    (h : (node.action (x.scope p)).outcome = .ok (.write lines)) :
    x.expandNodes chain p (node :: rest) =
      (x.expandNodes chain p rest).after (node.action (x.scope p)).log lines := by
  have hnode : (x.inside chain p).interpret node = ⟨(node.action (x.scope p)).log, .ok lines⟩ :=
    (Run.bind_of_ok h _).trans (by simp)
  have hlines : ((x.inside chain p).interpret node).outcome = .ok lines := by rw [hnode]
  rw [expandNodes, Run.gather_cons_of_ok hlines, hnode]
  rfl

/-- A step that stands for those that it guards is expanded as if they were written in its place. -/
theorem expandNodes_of_descend (hnode : node.IsPlain)
    (h : (node.action (x.scope p)).outcome = .ok .descend) :
    x.expandNodes chain p (node :: rest) =
      (x.expandNodes chain p (node.below ++ rest)).after (node.action (x.scope p)).log [] := by
  have hguarded : ∀ step ∈ node.guarded, step.isPlain = true := fun step hstep =>
    (hnode.of_mem_guarded Value.inherited_true hstep).1
  have hinner : (x.inside chain p).interpret node =
      (x.expandNodes chain p node.below).after (node.action (x.scope p)).log [] := by
    refine (Run.bind_of_ok h _).trans ?_
    simp only [StepContext.runAll_eq_gather_interpret (c := x.inside chain p) rfl hguarded,
      Run.after_messages]
    rfl
  exact Run.gather_cons_of_eq_after hinner rest

/-- Carrying out an inclusion is opening its library. -/
theorem interpret_of_enter (chain : IncludeChain)
    (h : (node.action (x.scope p)).outcome = .ok (.enter name given)) :
    (x.inside chain p).interpret node =
      ⟨(node.action (x.scope p)).log ++ (x.openLibrary chain p name given).log,
        (x.openLibrary chain p name given).outcome⟩ := Run.bind_of_ok h _

/-- An unknown library leaves a placeholder before the lines of the steps after it. -/
theorem expandNodes_of_unknown (h : (node.action (x.scope p)).outcome = .ok (.enter name given))
    (hlibrary : x.libraries.get? name = none) :
    x.expandNodes chain p (node :: rest) = (x.expandNodes chain p rest).after
      ((node.action (x.scope p)).log ++ [missingWarning name]) [missingLibrary name] := by
  have hnode := interpret_of_enter chain h
  rw [openLibrary_of_unknown hlibrary] at hnode
  have hlines : ((x.inside chain p).interpret node).outcome = .ok [missingLibrary name] := by rw [hnode]
  rw [expandNodes, Run.gather_cons_of_ok hlines, hnode]
  rfl

/-- A refused library ends the expansion. -/
theorem expandNodes_of_refused {e : IncludeError}
    (h : (node.action (x.scope p)).outcome = .ok (.enter name given))
    (hlibrary : x.libraries.get? name = some library) (hpush : chain.push name = .error e) :
    x.expandNodes chain p (node :: rest) = ⟨(node.action (x.scope p)).log, .error (.inclusion e)⟩ := by
  have hnode := interpret_of_enter chain h
  rw [openLibrary_of_refused hlibrary hpush] at hnode
  have he : ((x.inside chain p).interpret node).outcome = .error (.inclusion e) := by rw [hnode]; rfl
  rw [expandNodes, Run.gather_cons_of_error he, hnode]
  simp [Run.fail]

/-- The lines of a library that is entered come before those of the steps after the inclusion. -/
theorem expandNodes_of_entered {lines : List Text} (htable : x.libraries.IsPlain)
    (h : (node.action (x.scope p)).outcome = .ok (.enter name given))
    (hlibrary : x.libraries.get? name = some library) (hpush : chain.push name = .ok longer)
    (hlines : (x.expandNodes longer (enterWith library p given) library.nodes).outcome = .ok lines) :
    x.expandNodes chain p (node :: rest) = (x.expandNodes chain p rest).after
      ((node.action (x.scope p)).log ++
        (x.expandNodes longer (enterWith library p given) library.nodes).log) lines := by
  have hnode := interpret_of_enter chain h
  rw [openLibrary_of_room htable hlibrary hpush] at hnode
  have hown : ((x.inside chain p).interpret node).outcome = .ok lines := by rw [hnode, hlines]
  rw [expandNodes, Run.gather_cons_of_ok hown, hnode]
  rfl

/-- When a library that is entered fails, nothing follows. -/
theorem expandNodes_of_failed {e : Failure} (htable : x.libraries.IsPlain)
    (h : (node.action (x.scope p)).outcome = .ok (.enter name given))
    (hlibrary : x.libraries.get? name = some library) (hpush : chain.push name = .ok longer)
    (he : (x.expandNodes longer (enterWith library p given) library.nodes).outcome = .error e) :
    x.expandNodes chain p (node :: rest) = ⟨(node.action (x.scope p)).log ++
      (x.expandNodes longer (enterWith library p given) library.nodes).log, .error e⟩ := by
  have hnode := interpret_of_enter chain h
  rw [openLibrary_of_room htable hlibrary hpush] at hnode
  have hown : ((x.inside chain p).interpret node).outcome = .error e := by rw [hnode, he]
  rw [expandNodes, Run.gather_cons_of_error hown, hnode]

/-- What holds of a list of steps when it holds of the steps after the first, of those that the first
guards, and of the steps of every library that may be entered, holds of all lists of steps. -/
theorem expansion_induction (htable : x.libraries.IsPlain)
    {motive : IncludeChain → Entries Value → List StepNode → Prop}
    (nil : ∀ chain p, motive chain p [])
    (cons : ∀ chain p (node : StepNode) rest, node.IsPlain →
      motive chain p rest → motive chain p (node.below ++ rest) →
      (∀ name library longer q, x.libraries.get? name = some library → chain.push name = .ok longer →
        motive longer q library.nodes) →
      motive chain p (node :: rest))
    (chain : IncludeChain) (p : Entries Value) (nodes : List StepNode)
    (hnodes : ∀ node ∈ nodes, node.IsPlain) :
    motive chain p nodes := by
  induction hsize : (x.libraries.outside chain).length using Nat.strongRecOn generalizing chain p nodes with
  | ind size ih =>
    have hopen : ∀ name library longer q, x.libraries.get? name = some library →
        chain.push name = .ok longer → motive longer q library.nodes := by
      intro name library longer q hlibrary hpush
      have hless := LibraryTable.outside_push_lt (LibraryTable.mem_names_of_get? hlibrary) hpush
      exact ih _ (hsize ▸ hless) longer q library.nodes (htable.nodes hlibrary) rfl
    -- A step may be put in front of any list, and so may the steps that it guards, one after the other.
    have hfront (front : List StepNode)
        (hone : ∀ node ∈ front, ∀ rest, motive chain p rest → motive chain p (node :: rest))
        (rest : List StepNode) (hrest : motive chain p rest) : motive chain p (front ++ rest) := by
      induction front with
      | nil => exact hrest
      | cons node front hfront =>
        exact hone node List.mem_cons_self _
          (hfront fun other hother => hone other (List.mem_cons_of_mem _ hother))
    have hone : ∀ node ∈ nodes, ∀ rest, motive chain p rest → motive chain p (node :: rest) := by
      intro node hnode
      refine StepNode.plain_induction
        (motive := fun node => ∀ rest, motive chain p rest → motive chain p (node :: rest)) ?_
        (hnodes node hnode)
      intro node hplain hbelow rest hrest
      exact cons chain p node rest hplain hrest (hfront node.below hbelow rest hrest) hopen
    simpa using hfront nodes hone [] (nil chain p)

end Expander

/-- Expanding steps on a chain under parameters ends in this run. -/
inductive Expands (x : Expander) :
    IncludeChain → Entries Value → List StepNode → Run Failure (List Text) → Prop
  /-- nothing is left to expand -/
  | nil {chain p} : Expands x chain p [] (pure [])
  /-- the first step cannot be looked at -/
  | fault {chain p node rest e} (h : (node.action (x.scope p)).outcome = .error e) :
      Expands x chain p (node :: rest) ⟨(node.action (x.scope p)).log, .error e⟩
  /-- lines stand for the first step -/
  | write {chain p node rest lines run} (h : (node.action (x.scope p)).outcome = .ok (.write lines))
      (hrest : Expands x chain p rest run) :
      Expands x chain p (node :: rest) (run.after (node.action (x.scope p)).log lines)
  /-- the steps that the first one guards take its place -/
  | descend {chain p node rest run} (h : (node.action (x.scope p)).outcome = .ok .descend)
      (hbelow : Expands x chain p (node.below ++ rest) run) :
      Expands x chain p (node :: rest) (run.after (node.action (x.scope p)).log [])
  /-- the first step includes an unknown library -/
  | unknown {chain p node rest name given run}
      (h : (node.action (x.scope p)).outcome = .ok (.enter name given))
      (hlibrary : x.libraries.get? name = none) (hrest : Expands x chain p rest run) :
      Expands x chain p (node :: rest)
        (run.after ((node.action (x.scope p)).log ++ [missingWarning name]) [missingLibrary name])
  /-- the chain refuses the library that the first step includes -/
  | refused {chain p node rest name given library e}
      (h : (node.action (x.scope p)).outcome = .ok (.enter name given))
      (hlibrary : x.libraries.get? name = some library) (hpush : chain.push name = .error e) :
      Expands x chain p (node :: rest) ⟨(node.action (x.scope p)).log, .error (.inclusion e)⟩
  /-- the library that the first step includes has been expanded -/
  | entered {chain p node rest name given library longer inner lines run}
      (h : (node.action (x.scope p)).outcome = .ok (.enter name given))
      (hlibrary : x.libraries.get? name = some library) (hpush : chain.push name = .ok longer)
      (hinner : Expands x longer (Expander.enterWith library p given) library.nodes inner)
      (hlines : inner.outcome = .ok lines) (hrest : Expands x chain p rest run) :
      Expands x chain p (node :: rest) (run.after ((node.action (x.scope p)).log ++ inner.log) lines)
  /-- the library that the first step includes fails -/
  | failed {chain p node rest name given library longer inner e}
      (h : (node.action (x.scope p)).outcome = .ok (.enter name given))
      (hlibrary : x.libraries.get? name = some library) (hpush : chain.push name = .ok longer)
      (hinner : Expands x longer (Expander.enterWith library p given) library.nodes inner)
      (he : inner.outcome = .error e) :
      Expands x chain p (node :: rest) ⟨(node.action (x.scope p)).log ++ inner.log, .error e⟩

namespace Expander

variable {x : Expander} {chain : IncludeChain} {p : Entries Value} {nodes : List StepNode}

/-- Every list of steps without self-reference is expanded by the rules. -/
theorem expands (htable : x.libraries.IsPlain) (hnodes : ∀ node ∈ nodes, node.IsPlain) :
    Expands x chain p nodes (x.expandNodes chain p nodes) := by
  refine expansion_induction htable
    (motive := fun chain p nodes => Expands x chain p nodes (x.expandNodes chain p nodes)) ?_ ?_ chain p nodes
    hnodes
  · exact fun _ _ => .nil
  · intro chain p node rest hnode hrest hbelow hopen
    cases h : (node.action (x.scope p)).outcome with
    | error e =>
      rw [expandNodes_of_fault h]
      exact .fault h
    | ok action =>
      cases action with
      | write lines =>
        rw [expandNodes_of_write h]
        exact .write h hrest
      | descend =>
        rw [expandNodes_of_descend hnode h]
        exact .descend h hbelow
      | enter name given =>
        cases hlibrary : x.libraries.get? name with
        | none =>
          rw [expandNodes_of_unknown h hlibrary]
          exact .unknown h hlibrary hrest
        | some library =>
          cases hpush : chain.push name with
          | error e =>
            rw [expandNodes_of_refused h hlibrary hpush]
            exact .refused h hlibrary hpush
          | ok longer =>
            have hinner := hopen name library longer (enterWith library p given) hlibrary hpush
            cases hlines : (x.expandNodes longer (enterWith library p given) library.nodes).outcome with
            | ok lines =>
              rw [expandNodes_of_entered htable h hlibrary hpush hlines]
              exact .entered h hlibrary hpush hinner hlines hrest
            | error e =>
              rw [expandNodes_of_failed htable h hlibrary hpush hlines]
              exact .failed h hlibrary hpush hinner hlines

/-- Steps without self-reference are expanded by the rules to what expanding them gives, and to nothing
else. -/
theorem expands_iff (htable : x.libraries.IsPlain) (hnodes : ∀ node ∈ nodes, node.IsPlain)
    {run : Run Failure (List Text)} :
    Expands x chain p nodes run ↔ run = x.expandNodes chain p nodes := by
  constructor
  · intro h
    induction h with
    | nil => rfl
    | fault h => exact (expandNodes_of_fault h).symm
    | write h _ ih =>
      rw [expandNodes_of_write h, ih fun node hnode => hnodes node (List.mem_cons_of_mem _ hnode)]
    | descend h _ ih =>
      have hnode := hnodes _ List.mem_cons_self
      rw [expandNodes_of_descend hnode h, ih]
      intro inner hinner
      rcases List.mem_append.mp hinner with hbelow | hrest
      · exact hnode.below inner hbelow
      · exact hnodes inner (List.mem_cons_of_mem _ hrest)
    | unknown h hlibrary _ ih =>
      rw [expandNodes_of_unknown h hlibrary, ih fun node hnode => hnodes node (List.mem_cons_of_mem _ hnode)]
    | refused h hlibrary hpush => exact (expandNodes_of_refused h hlibrary hpush).symm
    | entered h hlibrary hpush _ hlines _ ihinner ihrest =>
      obtain rfl := ihinner (htable.nodes hlibrary)
      rw [expandNodes_of_entered htable h hlibrary hpush hlines,
        ihrest fun node hnode => hnodes node (List.mem_cons_of_mem _ hnode)]
    | failed h hlibrary hpush _ he ihinner =>
      obtain rfl := ihinner (htable.nodes hlibrary)
      exact (expandNodes_of_failed htable h hlibrary hpush he).symm
  · rintro rfl
    exact expands htable hnodes

variable {d : Int} {steps : List Value}

/-- What no inclusion surrounds is on the empty chain. -/
theorem outermost_eq_inside (hd : x.maxDepth = some d) (p : Entries Value) :
    x.outermost p = x.inside (.empty d) p := by
  unfold outermost inside
  congr 1
  funext name given
  simp [openOutermost, hd]

/-- The steps of a test case are expanded on the empty chain. -/
theorem expand_eq_expandNodes (hd : x.maxDepth = some d) (hsteps : ∀ step ∈ steps, step.isPlain = true) :
    x.expand p steps = x.expandNodes (.empty d) p (StepNode.ofSteps true steps) := by
  rw [expand, outermost_eq_inside hd]
  exact StepContext.gather_runTop_eq_gather_interpret rfl hsteps

/-- A single inclusion is expanded as the only step on the empty chain. -/
theorem expandInclusion_eq_expandNodes (hd : x.maxDepth = some d) {step : Value} {name : Text}
    {given : Entries Value} (hstep : StepNode.ofValue false step = .inclusion name given) :
    x.expandInclusion p step = x.expandNodes (.empty d) p [.inclusion name given] := by
  rw [expandNodes, Run.gather_singleton, StepContext.interpret, StepNode.action, pure_bind, expandInclusion,
    hstep]
  simp [openOutermost, hd, inside]

/-- The rules expand the steps of a test case to what expanding it gives. -/
theorem expands_expand (hd : x.maxDepth = some d) (htable : x.libraries.IsPlain)
    (hsteps : ∀ step ∈ steps, step.isPlain = true) :
    Expands x (.empty d) p (StepNode.ofSteps true steps) (x.expand p steps) := by
  rw [expand_eq_expandNodes hd hsteps]
  exact expands htable (StepNode.saidBy_ofSteps fun step hstep => ⟨hsteps step hstep, trivial⟩)

end Expander
end TestPlan
