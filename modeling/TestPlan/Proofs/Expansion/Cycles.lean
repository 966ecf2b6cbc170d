import TestPlan.Proofs.Expansion.Termination

/-!
# Cycles of inclusions

Which libraries steps include can be read off the steps: in some of them, or in steps that those guard
(`StepNode.Includes`), or in some of them for certain (`StepNode.MustInclude`). A walk goes on from the
steps of one included library to the next (`LibraryTable.Walk`).

An inclusion is refused at the end of a walk on which the include chain stands (`Expands.walk_of_refusal`),
and an expansion that succeeds has entered every library of every walk of certain inclusions
(`Expander.isWithin_of_walk`). So inclusions are refused only where some walk repeats a library or is longer
than the limit, and an expansion fails wherever a walk of certain inclusions does either.
-/

namespace TestPlan

namespace StepNode

/-- One of these steps, or one that they guard, includes the library with this name. -/
def Includes (name : Text) (nodes : List StepNode) : Prop := ∃ given, Among (.inclusion name given) nodes

/-- One of these steps includes the library with this name, on no condition. -/
def MustInclude (name : Text) (nodes : List StepNode) : Prop := ∃ given, .inclusion name given ∈ nodes

/-- What later steps include is included by all. -/
theorem Includes.cons {name : Text} {first : StepNode} {rest : List StepNode} (h : Includes name rest) :
    Includes name (first :: rest) := h.imp fun _ => Among.cons

/-- What the steps below a step include is included by the step. -/
theorem Includes.of_below {name : Text} {first : StepNode} {rest : List StepNode}
    (h : Includes name (first.below ++ rest)) : Includes name (first :: rest) := h.imp fun _ => Among.of_below

/-- An inclusion includes its library. -/
theorem includes_cons (name : Text) (given : Entries Value) (rest : List StepNode) :
    Includes name (.inclusion name given :: rest) := ⟨given, .here List.mem_cons_self⟩

end StepNode

namespace LibraryTable

/-- A walk from steps to a library that they lead to, and on from the steps of that library; all its
libraries are in the table. -/
inductive Walk (table : LibraryTable) (Leads : Text → List StepNode → Prop) : List StepNode → List Text → Prop
  | nil {nodes} : Walk table Leads nodes []
  | cons {nodes name library names} (h : Leads name nodes) (hlibrary : table.get? name = some library)
      (hrest : Walk table Leads library.nodes names) : Walk table Leads nodes (name :: names)

/-- A walk can begin at all steps that lead to the libraries which the first steps lead to. -/
theorem Walk.mono {table : LibraryTable} {Leads : Text → List StepNode → Prop} {nodes more : List StepNode}
    {names : List Text} (h : table.Walk Leads nodes names)
    (hleads : ∀ name, Leads name nodes → Leads name more) :
    table.Walk Leads more names := by
  cases h with
  | nil => exact .nil
  | cons h hlibrary hrest => exact .cons (hleads _ h) hlibrary hrest

end LibraryTable

open StepNode (Includes MustInclude)

/-- A refused inclusion is the end of a walk, and the walk up to it is on the chain that refuses. -/
theorem Expands.walk_of_refusal {x : Expander} {chain : IncludeChain} {p : Entries Value}
    {nodes : List StepNode} {run : Run Failure (List Text)} (h : Expands x chain p nodes run)
    {refusal : IncludeError} (hrefusal : run.outcome = .error (.inclusion refusal)) {limit : Int}
    (hchain : chain.IsWithin x.libraries limit) :
    ∃ (full : IncludeChain) (entered : List Text) (last : Text), full.IsWithin x.libraries limit ∧
      full.names = chain.names ++ entered ∧ full.push last = .error refusal ∧
      x.libraries.Walk Includes nodes (entered ++ [last]) := by
  induction h with
  | nil => simp at hrefusal
  | fault h =>
    obtain ⟨fault, rfl⟩ := StepNode.action_fails_in_step h
    simp at hrefusal
  | write _ _ ih | unknown _ _ _ ih | entered _ _ _ _ _ _ _ ih =>
    obtain ⟨full, entered, last, hwithin, hnames, hpush, hwalk⟩ :=
      ih (Run.after_outcome_eq_error.mp hrefusal) hchain
    exact ⟨full, entered, last, hwithin, hnames, hpush, hwalk.mono fun _ => Includes.cons⟩
  | descend _ _ ih =>
    obtain ⟨full, entered, last, hwithin, hnames, hpush, hwalk⟩ :=
      ih (Run.after_outcome_eq_error.mp hrefusal) hchain
    exact ⟨full, entered, last, hwithin, hnames, hpush, hwalk.mono fun _ => Includes.of_below⟩
  | @refused chain p node rest name given library e h hlibrary hpush =>
    obtain rfl : e = refusal := by simpa using hrefusal
    obtain rfl := StepNode.eq_inclusion_of_enter h
    exact ⟨chain, [], name, hchain, (List.append_nil _).symm, hpush,
      .cons (StepNode.includes_cons _ _ _) hlibrary .nil⟩
  | @failed chain p node rest name given library longer inner e h hlibrary hpush hinner he ih =>
    obtain rfl : e = .inclusion refusal := by simpa using hrefusal
    obtain rfl := StepNode.eq_inclusion_of_enter h
    obtain ⟨full, entered, last, hwithin, hnames, hfull, hwalk⟩ :=
      ih he (hchain.push (LibraryTable.mem_names_of_get? hlibrary) hpush)
    obtain ⟨-, rfl⟩ := IncludeChain.push_eq_ok hpush
    refine ⟨full, name :: entered, last, hwithin, ?_, hfull,
      .cons (StepNode.includes_cons _ _ _) hlibrary hwalk⟩
    simpa using hnames

namespace Expander

variable {x : Expander} {d : Int} {p : Entries Value} {steps : List Value}

/-- An expansion that succeeds has entered the libraries of every walk of certain inclusions. -/
theorem isWithin_of_walk (htable : x.libraries.IsPlain) {nodes : List StepNode} {names : List Text}
    (hwalk : x.libraries.Walk MustInclude nodes names) {chain : IncludeChain} {p : Entries Value}
    {lines : List Text} (hlines : (x.expandNodes chain p nodes).outcome = .ok lines) {limit : Int}
    (hchain : chain.IsWithin x.libraries limit) :
    ({ chain with names := chain.names ++ names } : IncludeChain).IsWithin x.libraries limit := by
  induction hwalk generalizing chain p lines with
  | nil => simpa using hchain
  | @cons nodes name library names h hlibrary _ ih =>
    obtain ⟨given, hgiven⟩ := h
    obtain ⟨own, hown⟩ := Run.exists_ok_of_mem_of_gather_eq_ok hlines hgiven
    rw [interpret_of_enter chain rfl] at hown
    cases hpush : chain.push name with
    | error e =>
      rw [openLibrary_of_refused hlibrary hpush] at hown
      simp [Run.fail] at hown
    | ok longer =>
      rw [openLibrary_of_room htable hlibrary hpush] at hown
      have hlonger := ih hown (hchain.push (LibraryTable.mem_names_of_get? hlibrary) hpush)
      obtain ⟨-, rfl⟩ := IncludeChain.push_eq_ok hpush
      simpa using hlonger

/-- The libraries of a walk can be on one chain under a limit: none of them is there twice, and they are not
too many. -/
def Fits (limit : Int) (names : List Text) : Prop := names.Nodup ∧ (names.length : Int) ≤ limit

/-- No inclusion is refused if the libraries of every walk can be on one chain. -/
theorem not_refused_of_fits (hd : x.maxDepth = some d) (htable : x.libraries.IsPlain)
    (hsteps : ∀ step ∈ steps, step.isPlain = true)
    (hfits : ∀ names, x.libraries.Walk Includes (StepNode.ofSteps true steps) names → names ≠ [] → Fits d names)
    (refusal : IncludeError) : (x.expand p steps).outcome ≠ .error (.inclusion refusal) := by
  intro hrefusal
  obtain ⟨full, entered, last, hwithin, hnames, hpush, hwalk⟩ :=
    (expands_expand hd htable hsteps).walk_of_refusal hrefusal (IncludeChain.isWithin_empty x.libraries d)
  obtain ⟨hnodup, hlength⟩ := hfits _ hwalk (by simp)
  rw [IncludeChain.empty, List.nil_append] at hnames
  have hfresh : last ∉ full.names := by
    intro hlast
    rw [hnames] at hlast
    exact (List.nodup_append.mp hnodup).2.2 last hlast last List.mem_cons_self rfl
  have hroom : (full.depth : Int) < full.limit := by
    have hlimit := hwithin.limit_eq
    simp only [List.length_append, List.length_singleton] at hlength
    simp only [IncludeChain.depth, hnames]
    omega
  rw [IncludeChain.push_of_room hfresh hroom] at hpush
  simp at hpush

/-- There are no lines if the libraries of a walk of certain inclusions cannot be on one chain. -/
theorem not_ok_of_not_fits (hd : x.maxDepth = some d) (htable : x.libraries.IsPlain)
    (hsteps : ∀ step ∈ steps, step.isPlain = true) {names : List Text}
    (hwalk : x.libraries.Walk MustInclude (StepNode.ofSteps true steps) names) (hnonempty : names ≠ [])
    (hunfit : ¬ Fits d names) (lines : List Text) : (x.expand p steps).outcome ≠ .ok lines := by
  intro hlines
  rw [expand_eq_expandNodes hd hsteps] at hlines
  have hwithin := isWithin_of_walk htable hwalk hlines (IncludeChain.isWithin_empty x.libraries d)
  have hbounded := hwithin.bounded
  have hnodup := hwithin.nodup
  simp only [IncludeChain.empty, List.nil_append] at hbounded hnodup
  have hpositive := List.length_pos_of_ne_nil hnonempty
  exact hunfit ⟨hnodup, by omega⟩

/-- The chain of a repeated inclusion is a walk to a library that is on it before. -/
theorem walk_of_circular (hd : x.maxDepth = some d) (htable : x.libraries.IsPlain)
    (hsteps : ∀ step ∈ steps, step.isPlain = true) {names : List Text}
    (hcircular : (x.expand p steps).outcome = .error (.inclusion (.circular names))) :
    x.libraries.Walk Includes (StepNode.ofSteps true steps) names ∧
      ∃ entered last, names = entered ++ [last] ∧ entered.Nodup ∧ last ∈ entered := by
  obtain ⟨full, entered, last, hwithin, hnames, hpush, hwalk⟩ :=
    (expands_expand hd htable hsteps).walk_of_refusal hcircular (IncludeChain.isWithin_empty x.libraries d)
  obtain ⟨hmem, rfl⟩ := IncludeChain.mem_of_circular hpush
  rw [IncludeChain.empty, List.nil_append] at hnames
  subst hnames
  exact ⟨hwalk, full.names, last, rfl, hwithin.nodup, hmem⟩

/-- The chain refuses inclusions exactly where they repeat a library or are too deep. If no walk of
inclusions from the steps of a test case does either, no inclusion is refused, and there are lines unless an
integer is too long or a key inside a pair cannot be named. If a walk of certain inclusions does, there are
no lines, and an inclusion is refused unless the expansion fails for one of those other reasons. The chain
of a repeated inclusion is a walk to a library that is on it before, with no other library on it twice. -/
theorem expand_refuses (hd : x.maxDepth = some d) (htable : x.libraries.IsPlain)
    (hsteps : ∀ step ∈ steps, step.isPlain = true) (p : Entries Value) :
    let nodes := StepNode.ofSteps true steps
    let outcome := (x.expand p steps).outcome
    ((∀ names, x.libraries.Walk Includes nodes names → names ≠ [] → Fits d names) →
        (∀ refusal, outcome ≠ .error (.inclusion refusal)) ∧
        (x.NamesKeys steps → x.Writable p steps → ∃ lines, outcome = .ok lines)) ∧
      (∀ names, x.libraries.Walk MustInclude nodes names → names ≠ [] → ¬ Fits d names →
        (∀ lines, outcome ≠ .ok lines) ∧
        (x.NamesKeys steps → x.Writable p steps → ∃ refusal, outcome = .error (.inclusion refusal))) ∧
      ∀ names, outcome = .error (.inclusion (.circular names)) → x.libraries.Walk Includes nodes names ∧
        ∃ entered last, names = entered ++ [last] ∧ entered.Nodup ∧ last ∈ entered := by
  intro nodes outcome
  have hcases (hnames : x.NamesKeys steps) (hwritable : x.Writable p steps) :
      (∃ lines, outcome = .ok lines) ∨ ∃ refusal, outcome = .error (.inclusion refusal) := by
    cases houtcome : outcome with
    | ok lines => exact .inl ⟨lines, rfl⟩
    | error e =>
      obtain ⟨refusal, rfl⟩ := hwritable.expand_fails_with hd htable hsteps hnames houtcome
      exact .inr ⟨refusal, rfl⟩
  refine ⟨fun hfits => ?_, fun names hwalk hnonempty hunfit => ?_,
    fun names => walk_of_circular hd htable hsteps⟩
  · have haccepts := not_refused_of_fits (p := p) hd htable hsteps hfits
    refine ⟨haccepts, fun hnames hwritable => (hcases hnames hwritable).resolve_right ?_⟩
    exact fun ⟨refusal, hrefusal⟩ => haccepts refusal hrefusal
  · have hno := not_ok_of_not_fits (p := p) hd htable hsteps hwalk hnonempty hunfit
    refine ⟨hno, fun hnames hwritable => (hcases hnames hwritable).resolve_left ?_⟩
    exact fun ⟨lines, hlines⟩ => hno lines hlines

/-- A library that includes itself is refused, however high the limit is. -/
theorem expand_refuses_loop :
    let loop : StepLibrary := ⟨"loop", [], [], [.map [(.text "include", .text "loop")]]⟩
    let x : Expander := ⟨[loop], [], some 1000⟩
    ∃ refusal, (x.expand [] loop.steps).outcome = .error (.inclusion refusal) := by
  intro loop x
  have hsteps : ∀ step ∈ loop.steps, step.isPlain = true := by simp [loop, Value.isPlain, Value.entriesPlain]
  have htable : x.libraries.IsPlain := by simpa [x, LibraryTable.IsPlain] using hsteps
  have hkeys (top : Bool) (node : StepNode) (hnode : StepNode.Among node (StepNode.ofSteps top loop.steps)) :
      node.namesKeys = true := by
    have hmem := hnode.mem_of_unguarded (by cases top <;> decide)
    rw [List.mem_singleton.mp hmem]
    cases top <;> rfl
  have hnames : x.NamesKeys loop.steps := ⟨hkeys true, by simpa [x, StepLibrary.nodes] using hkeys false⟩
  have hwritable : x.Writable [] loop.steps := by
    constructor <;>
      simp [x, loop, Value.treeWritable, Value.entriesWritable, Scalar.isWritable, Entries.AllWritable]
  have hloop (top : Bool) : MustInclude "loop" (StepNode.ofSteps top loop.steps) :=
    ⟨[], List.mem_singleton.mpr (by cases top <;> rfl)⟩
  have hwalk : x.libraries.Walk MustInclude (StepNode.ofSteps true loop.steps) ["loop", "loop"] :=
    .cons (hloop true) rfl (.cons (hloop false) rfl .nil)
  have hunfit : ¬ Fits 1000 (["loop", "loop"] : List Text) := fun h => absurd h.1 (by decide)
  exact ((expand_refuses rfl htable hsteps []).2.1 _ hwalk (by simp) hunfit).2 hnames hwritable

/-- Steps that include nothing can fail all the same: an integer that is too long has no text, and neither
has a key inside a pair that cannot be named. -/
theorem expand_refuses_nothing_and_fails :
    let x : Expander := ⟨[], [], some 10⟩
    let long : List Value := [.int (Int.pow 10 Number.digitLimit)]
    let day : Scalar := .date ⟨2024, 1, 1, by decide, by decide, by decide⟩
    let unnamed : List Value := [.list [.pair (.text "a") (.map [(day, .text "x")])]]
    ∀ steps ∈ [long, unnamed], (∀ step ∈ steps, step.isPlain = true) ∧
      (∀ names, x.libraries.Walk Includes (StepNode.ofSteps true steps) names → names = []) ∧
      ¬ ∃ lines, (x.expand [] steps).outcome = .ok lines := by
  intro x long day unnamed steps hsteps
  have hlong : (x.expand [] long).outcome = .error (.step (.text (.write .tooManyDigits))) :=
    x.expand_of_textless [] rfl rfl (Value.stepText_of_long Number.isWritable_limit)
  have hunnamed : (x.expand [] unnamed).outcome = .error (.step (.text (.key "datetime.date"))) :=
    x.expand_of_textless [] rfl rfl (Value.stepText_of_unnamed rfl "a" (.text "x"))
  have hnone : ∀ (nodes : List StepNode) names, x.libraries.Walk Includes nodes names → names = [] := by
    intro nodes names hwalk
    cases hwalk with
    | nil => rfl
    | cons _ hlibrary _ => simp [x, LibraryTable.get?] at hlibrary
  rcases List.mem_pair.mp hsteps with rfl | rfl
  · exact ⟨by simp [long, Value.isPlain], hnone _, by simp [hlong]⟩
  · exact ⟨by simp [unnamed, Value.isPlain, Value.arePlain, Value.entriesPlain], hnone _, by simp [hunnamed]⟩

end Expander
end TestPlan
