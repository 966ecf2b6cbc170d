import TestPlan.Proofs.Expansion.Moments

/-!
# Which value of a name counts

The parameters that the steps of a library see are merged anew with every call: what the call gives goes
over what the caller sees, and both go over the defaults of the library. Over any nesting of calls this
comes to a rule without merging (`Expander.boundValue?`): the innermost call that gives a value counts, then
the parameters from the outside, then the outermost library that declares a default, then the environment.
`Layered` says how the parameters of a moment come from its calls, and every move keeps it.
-/

namespace TestPlan

/-- A text finds in entries that are written one after the other the last one for it. -/
theorem Entries.find?_ofList {α : Type} (name : Text) (entries : Entries α) :
    (ofList entries).find? name =
      entries.reverse.findSome? fun entry => if entry.1 = .text name then some entry.2 else none := by
  induction entries using List.reverseRecOn with
  | nil => rfl
  | append_singleton front entry ih =>
    have hlast : ofList (front ++ [entry]) = (ofList front).insert entry.1 entry.2 := overlay_append _ _ _
    rw [hlast, find?_insert, ih, List.reverse_append, List.reverse_singleton, List.singleton_append,
      List.findSome?_cons]
    by_cases hkey : entry.1 = .text name
    · rw [if_pos hkey, if_pos hkey]
    · rw [if_neg hkey, if_neg hkey]

/-- A null contributes no text. -/
theorem Value.parameterText_of_isNull {v : Value} (h : v.isNull = true) : v.parameterText = [] := by
  unfold isNull at h
  split at h
  · rfl
  · simp at h

namespace StepLibrary

/-- The default that a library declares for a name: the last one that is there. -/
def declaredDefault? (library : StepLibrary) (name : Text) : Option Value :=
  library.parameters.reverse.findSome? fun p => if p.name = name then p.default.map Value.text else none

/-- A name finds among the defaults of a library the one that is declared for it. -/
theorem find?_defaults (library : StepLibrary) (name : Text) :
    library.defaults.find? name = library.declaredDefault? name := by
  rw [defaults, Entries.find?_ofList, ← List.filterMap_reverse, ← List.head?_filterMap,
    List.filterMap_filterMap, List.head?_filterMap, declaredDefault?]
  congr 1
  funext p
  cases p.default with
  | none => simp
  | some text => simp

end StepLibrary

/-- The parameters that the steps of a library see are distinct. -/
theorem Expander.distinct_enterWith (library : StepLibrary) (p given : Entries Value) :
    (enterWith library p given).Distinct :=
  Entries.distinct_overlay (Entries.distinct_ofList _) _

/-- A name finds among them what the call gives, then what the caller sees, then the declared default. -/
theorem Expander.find?_enterWith {p : Entries Value} (hp : p.Distinct) (library : StepLibrary)
    (given : Entries Value) (name : Text) : (enterWith library p given).find? name =
      ((Entries.ofList given).find? name).or ((p.find? name).or (library.declaredDefault? name)) := by
  rw [enterWith, StepLibrary.resolveParameters, Entries.find?_overlay,
    Entries.ofList_of_distinct (Entries.distinct_overlay hp given), Entries.find?_overlay,
    StepLibrary.find?_defaults, Option.or_assoc]

/-- The value that calls, the innermost first, give a name: the innermost that gives one counts. -/
def givenValue? (calls : List Call) (name : Text) : Option Value :=
  calls.findSome? fun call => (Entries.ofList call.given).find? name

/-- The default that the libraries of calls declare for a name: the outermost that declares one counts. -/
def defaultValue? (calls : List Call) (name : Text) : Option Value :=
  calls.reverse.findSome? fun call => call.library.declaredDefault? name

/-- What the innermost call gives counts before what the others give. -/
theorem givenValue?_cons (call : Call) (calls : List Call) (name : Text) :
    givenValue? (call :: calls) name =
      ((Entries.ofList call.given).find? name).or (givenValue? calls name) := by
  rw [givenValue?, List.findSome?_cons]
  cases (Entries.ofList call.given).find? name <;> rfl

/-- The default of the innermost library counts after those of the others. -/
theorem defaultValue?_cons (call : Call) (calls : List Call) (name : Text) :
    defaultValue? (call :: calls) name =
      (defaultValue? calls name).or (call.library.declaredDefault? name) := by
  rw [defaultValue?, List.reverse_cons, List.findSome?_append, List.findSome?_singleton]
  rfl

/-- The value that counts for a name inside calls: what they give, then what is inherited from outside, then
what their libraries declare, then the environment. -/
def Expander.boundValue? (x : Expander) (inherited : Entries Value) (calls : List Call) (name : Text) :
    Option Value :=
  (givenValue? calls name).or <| (inherited.find? name).or <|
    (defaultValue? calls name).or (x.environment.find? name)

/-- Parameters that come from those inherited from outside through calls, the innermost first. -/
def Layered (inherited : Entries Value) : List Call → Entries Value → Prop
  | [], p => p = inherited
  | call :: calls, p =>
    p = Expander.enterWith call.library call.caller.parameters call.given ∧
      Layered inherited calls call.caller.parameters

namespace Layered

variable {inherited p : Entries Value} {calls : List Call}

/-- Parameters that come through calls are distinct. -/
theorem distinct (h : Layered inherited calls p) (hinherited : inherited.Distinct) : p.Distinct := by
  cases calls with
  | nil => exact h ▸ hinherited
  | cons call calls =>
    rw [h.1]
    exact Expander.distinct_enterWith _ _ _

/-- A name finds among parameters that come through calls what the innermost call gives it, then what is
inherited, then what the outermost library declares. -/
theorem find?_eq (h : Layered inherited calls p) (hinherited : inherited.Distinct) (name : Text) :
    p.find? name = (givenValue? calls name).or ((inherited.find? name).or (defaultValue? calls name)) := by
  induction calls generalizing p with
  | nil =>
    rw [h]
    simp [givenValue?, defaultValue?]
  | cons call calls ih =>
    obtain ⟨rfl, hcaller⟩ := h
    rw [Expander.find?_enterWith (hcaller.distinct hinherited), ih hcaller, givenValue?_cons, defaultValue?_cons]
    simp only [Option.or_assoc]

end Layered

namespace Expander

variable {x : Expander} {d : Int} {p : Entries Value}

/-- What the calls of a moment say about it: its parameters come through them, and its chain names their
libraries. -/
structure CallsTell (inherited : Entries Value) (s : Moment) : Prop where
  layered : Layered inherited s.calls s.level.parameters
  chain : s.chain.names = (s.calls.map fun call => call.library.name).reverse

/-- One move keeps what the calls say. -/
theorem callsTell_of_advance {s t : Moment} (h : CallsTell p s) (hmove : x.advance s = .on t) :
    CallsTell p t := by
  obtain ⟨hlayered, hchain⟩ := h
  rcases advance_cases hmove with ⟨call, calls, hcalls, rfl⟩ | ⟨log, lines, pending, rfl⟩ |
    ⟨name, library, longer, log, given, rest, hlibrary, hpush, rfl⟩
  · rw [hcalls] at hlayered hchain
    refine ⟨hlayered.2, ?_⟩
    rw [Moment.leave, IncludeChain.left_names, hchain]
    simp
  · exact ⟨hlayered, hchain⟩
  · refine ⟨⟨rfl, hlayered⟩, ?_⟩
    obtain ⟨-, rfl⟩ := IncludeChain.push_eq_ok hpush
    simp [Moment.enter, hchain, LibraryTable.name_of_get? hlibrary]

/-- At every moment the calls say where the parameters and the chain come from. -/
theorem callsTell_of_reaches {nodes : List StepNode} {s : Moment} (h : x.Reaches (.start d p nodes) s) :
    CallsTell p s :=
  h.invariant (P := CallsTell p) ⟨rfl, rfl⟩ fun _ _ => callsTell_of_advance

/-- What an expansion can begin with, and its run: the steps of a test case, or a single inclusion. -/
inductive Begins (x : Expander) (p : Entries Value) : List StepNode → Run Failure (List Text) → Prop
  | steps {steps} (hsteps : ∀ step ∈ steps, step.isPlain = true) :
    Begins x p (StepNode.ofSteps true steps) (x.expand p steps)
  | single {step name given} (hstep : step.isPlain = true)
    (h : StepNode.ofValue false step = .inclusion name given) :
    Begins x p [.inclusion name given] (x.expandInclusion p step)

/-- At every moment of an expansion the value of a name is the one that its calls bind to it, whether the
expansion began with the steps of a test case or with a single inclusion. A placeholder for the name reads as
that value, and a null as the empty text; without a value it stays. -/
theorem value_of_calls (hd : x.maxDepth = some d) (htable : x.libraries.IsPlain) (hp : p.Distinct)
    {nodes : List StepNode} {run : Run Failure (List Text)} (hbegins : x.Begins p nodes run) :
    x.EndsWith (.start d p nodes) run ∧ ∀ s, x.Reaches (.start d p nodes) s →
      s.chain.names = (s.calls.map fun call => call.library.name).reverse ∧
      (∀ name, (x.scope s.level.parameters).value? name = x.boundValue? p s.calls name) ∧
      ∀ body, (Template.Piece.placeholder body).fill (x.scope s.level.parameters) =
        match x.boundValue? p s.calls (Template.nameOf body) with
        | some v => if v.isNull then [] else v.parameterText
        | none => (Template.Piece.placeholder body).source := by
  refine ⟨?_, fun s hs => ?_⟩
  · cases hbegins with
    | steps hsteps => exact endsWith_expand hd htable hsteps
    | single hstep h => exact endsWith_expandInclusion hd htable hstep h
  · obtain ⟨hlayered, hchain⟩ := callsTell_of_reaches hs
    have hvalue (name : Text) : (x.scope s.level.parameters).value? name = x.boundValue? p s.calls name := by
      rw [Scope.value?, scope, hlayered.find?_eq hp, boundValue?, Option.or_assoc, Option.or_assoc]
    refine ⟨hchain, hvalue, fun body => ?_⟩
    rw [Template.Piece.fill, Scope.lookup, hvalue]
    cases x.boundValue? p s.calls (Template.nameOf body) with
    | none => rfl
    | some v =>
      by_cases hnull : v.isNull = true
      · simp [hnull, Value.parameterText_of_isNull hnull]
      · simp [hnull]

/-- Two libraries deep, the value that the outer call gives goes over the inherited one and over both defaults, an
inherited value over a default, the default of the outer library over that of the inner one, and all over the
environment. -/
theorem value_of_calls_default :
    let inner : StepLibrary := ⟨"inner", [], [⟨"who", [], some "world"⟩, ⟨"tone", [], some "loud"⟩,
      ⟨"sign", [], some "?"⟩], [.text "hello \x7b\x7bwho\x7d\x7d"]⟩
    let outer : StepLibrary := ⟨"outer", [], [⟨"who", [], some "all"⟩, ⟨"sign", [], some "!"⟩],
      [.map [(.text "include", .text "inner")]]⟩
    let x : Expander := ⟨[outer, inner], [(.text "who", .text "nobody"), (.text "place", .text "home")], some 2⟩
    let p : Entries Value := [(.text "who", .text "guest"), (.text "tone", .text "calm")]
    let given : Entries Value := [(.text "who", .text "you")]
    let start := Moment.start 2 p (StepNode.ofSteps true
      [.map [(.text "include", .text "outer"), (.text "parameters", .map given)]])
    let inside := (start.enter [] ⟨["outer"], 2⟩ outer given []).enter [] ⟨["outer", "inner"], 2⟩ inner [] []
    let value (name : Text) : Option Value := (x.scope inside.level.parameters).value? name
    x.Reaches start inside ∧ value "who" = some (.text "you") ∧ value "tone" = some (.text "calm") ∧
      value "sign" = some (.text "!") ∧ value "place" = some (.text "home") ∧ value "nothing" = none ∧
      (Template.Piece.placeholder " who ").fill (x.scope inside.level.parameters) = "you" := by
  intro inner outer x p given start inside value
  have htable : x.libraries.IsPlain := by
    simp [x, outer, inner, LibraryTable.IsPlain, Value.isPlain, Value.entriesPlain]
  have hsteps : ∀ step ∈ [Value.map [(.text "include", .text "outer"), (.text "parameters", .map given)]],
      step.isPlain = true := by
    simp [given, Value.isPlain, Value.entriesPlain]
  have hdistinct : p.Distinct := by decide
  have hreaches : x.Reaches start inside := .tail (.single rfl) rfl
  obtain ⟨-, hvalues, hfill⟩ := (value_of_calls rfl htable hdistinct (.steps hsteps)).2 inside hreaches
  exact ⟨hreaches, hvalues "who", hvalues "tone", hvalues "sign", hvalues "place", hvalues "nothing", hfill " who "⟩

end Expander
end TestPlan
