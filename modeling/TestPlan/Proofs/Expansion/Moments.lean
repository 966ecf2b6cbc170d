import Mathlib.Logic.Relation
import TestPlan.Proofs.Expansion.Equations
import TestPlan.Proofs.IncludeChain

/-!
# The moments of an expansion

An expansion seen as a machine. A moment holds the include chain, the parameters and the steps that are
left where the expansion stands, the calls around it, and what has been reported and written so far. It
goes on with its first step, goes back to the caller when no step is left, and is over when there is no
caller either (`Expander.advance`).

The machine passes through finitely many moments and ends with what expanding the steps gives
(`Expander.endsWith_expand`), so what holds of every moment that is reached (`Expander.Reaches`) holds at
every moment of an expansion.
-/

namespace TestPlan

/-- The parameters that steps see, and the steps that are left. -/
structure Level where
  parameters : Entries Value
  pending : List StepNode

/-- A library that has been entered, the parameters given to it, and where the expansion goes on after it. -/
structure Call where
  library : StepLibrary
  given : Entries Value
  caller : Level

/-- Where an expansion stands; its calls are the innermost first. -/
structure Moment where
  chain : IncludeChain
  level : Level
  calls : List Call
  log : List Message
  lines : List Text

namespace Moment

/-- An expansion that has not begun. -/
def start (limit : Int) (p : Entries Value) (nodes : List StepNode) : Moment :=
  ⟨.empty limit, ⟨p, nodes⟩, [], [], []⟩

/-- Report messages and write lines, with other steps left. -/
def stay (s : Moment) (log : List Message) (lines : List Text) (pending : List StepNode) : Moment :=
  { s with level := ⟨s.level.parameters, pending⟩, log := s.log ++ log, lines := s.lines ++ lines }

/-- Enter a library, to go on with other steps after it. -/
def enter (s : Moment) (log : List Message) (longer : IncludeChain) (library : StepLibrary)
    (given : Entries Value) (rest : List StepNode) : Moment :=
  { s with
    chain := longer
    level := ⟨Expander.enterWith library s.level.parameters given, library.nodes⟩
    calls := ⟨library, given, s.level.parameters, rest⟩ :: s.calls
    log := s.log ++ log }

/-- Leave a library and go back to the caller. -/
def leave (s : Moment) (call : Call) (calls : List Call) : Moment :=
  { s with chain := s.chain.left, level := call.caller, calls := calls }

end Moment

/-- What comes after a moment. -/
inductive Progress
  /-- another moment -/
  | on (next : Moment)
  /-- nothing, since the expansion is over and this is its run -/
  | over (run : Run Failure (List Text))

namespace Expander

/-- Go on from a moment. -/
def advance (x : Expander) (s : Moment) : Progress :=
  match s.level.pending with
  | [] =>
    match s.calls with
    | [] => .over ⟨s.log, .ok s.lines⟩
    | call :: calls => .on (s.leave call calls)
  | node :: rest =>
    let look := node.action (x.scope s.level.parameters)
    match look.outcome with
    | .error e => .over ⟨s.log ++ look.log, .error e⟩
    | .ok (.write lines) => .on (s.stay look.log lines rest)
    | .ok .descend => .on (s.stay look.log [] (node.below ++ rest))
    | .ok (.enter name given) =>
      match x.libraries.get? name with
      | none => .on (s.stay (look.log ++ [missingWarning name]) [missingLibrary name] rest)
      | some library =>
        match s.chain.push name with
        | .error e => .over ⟨s.log ++ look.log, .error (.inclusion e)⟩
        | .ok longer => .on (s.enter look.log longer library given rest)

/-- One moment follows another, at once or after others. -/
def Reaches (x : Expander) : Moment → Moment → Prop :=
  Relation.ReflTransGen fun earlier later => x.advance earlier = .on later

/-- An expansion that stands at a moment comes to its end, with this run. -/
def EndsWith (x : Expander) (s : Moment) (run : Run Failure (List Text)) : Prop :=
  ∃ last, x.Reaches s last ∧ x.advance last = .over run

variable {x : Expander}

/-- All that can happen between two moments: a call ends, the first step is done or replaced on its own
level, or a library that the chain accepts is entered. -/
theorem advance_cases {s t : Moment} (h : x.advance s = .on t) :
    (∃ call calls, s.calls = call :: calls ∧ t = s.leave call calls) ∨
      (∃ log lines pending, t = s.stay log lines pending) ∨
      ∃ name library longer log given rest, x.libraries.get? name = some library ∧
        s.chain.push name = .ok longer ∧ t = s.enter log longer library given rest := by
  unfold advance at h
  split at h
  · split at h
    · simp at h
    next call calls hcalls => exact .inl ⟨call, calls, hcalls, (Progress.on.inj h).symm⟩
  next node rest hpending =>
    simp only at h
    split at h
    · simp at h
    · exact .inr (.inl ⟨_, _, _, (Progress.on.inj h).symm⟩)
    · exact .inr (.inl ⟨_, _, _, (Progress.on.inj h).symm⟩)
    next name given hlook =>
      split at h
      · exact .inr (.inl ⟨_, _, _, (Progress.on.inj h).symm⟩)
      next library hlibrary =>
        split at h
        · simp at h
        next longer hpush =>
          exact .inr (.inr ⟨name, library, longer, _, given, rest, hlibrary, hpush, (Progress.on.inj h).symm⟩)

/-- What holds at the start and at each moment that follows one where it holds, holds at every moment. -/
theorem Reaches.invariant {P : Moment → Prop} {s t : Moment} (h : x.Reaches s t) (hstart : P s)
    (hstep : ∀ earlier later, P earlier → x.advance earlier = .on later → P later) : P t := by
  induction h with
  | refl => exact hstart
  | tail _ hlast ih => exact hstep _ _ ih hlast

/-- An expansion that comes to its end does not go on for ever. -/
theorem EndsWith.not_forever {s : Moment} {run : Run Failure (List Text)} (h : x.EndsWith s run) :
    ¬ ∃ moments : Nat → Moment, moments 0 = s ∧ ∀ n, x.advance (moments n) = .on (moments (n + 1)) := by
  obtain ⟨last, hreaches, hlast⟩ := h
  induction hreaches using Relation.ReflTransGen.head_induction_on with
  | refl =>
    rintro ⟨moments, rfl, hmoments⟩
    exact absurd (hlast.symm.trans (hmoments 0)) (by simp)
  | head hnext _ ih =>
    rintro ⟨moments, rfl, hmoments⟩
    have hsame := Progress.on.inj (hnext.symm.trans (hmoments 0))
    exact ih ⟨fun n => moments (n + 1), hsame.symm, fun n => hmoments (n + 1)⟩

/-- An expansion comes to no other end. -/
theorem EndsWith.unique {s : Moment} {run other : Run Failure (List Text)} (h : x.EndsWith s run)
    (hother : x.EndsWith s other) : run = other := by
  obtain ⟨last, hreaches, hlast⟩ := h
  induction hreaches using Relation.ReflTransGen.head_induction_on with
  | refl =>
    obtain ⟨end', hreaches, hend⟩ := hother
    rcases hreaches.cases_head with rfl | ⟨next, hnext, -⟩
    · exact Progress.over.inj (hlast.symm.trans hend)
    · exact absurd (hlast.symm.trans hnext) (by simp)
  | head hnext _ ih =>
    obtain ⟨end', hreaches, hend⟩ := hother
    rcases hreaches.cases_head with rfl | ⟨next, hnext', hrest⟩
    · exact absurd (hnext.symm.trans hend) (by simp)
    · obtain rfl := Progress.on.inj (hnext.symm.trans hnext')
      exact ih ⟨end', hrest, hend⟩

section Moves

variable {s : Moment} {node : StepNode} {rest : List StepNode} {name : Text} {given : Entries Value}
  {library : StepLibrary}

/-- A step that fails ends the expansion with its failure. -/
theorem advance_of_fault {e : Failure} (hpending : s.level.pending = node :: rest)
    (h : (node.action (x.scope s.level.parameters)).outcome = .error e) :
    x.advance s = .over ⟨s.log ++ (node.action (x.scope s.level.parameters)).log, .error e⟩ := by
  simp only [advance, hpending, h]

/-- A step that is written leaves its lines, and the expansion goes on behind it. -/
theorem advance_of_write {lines : List Text} (hpending : s.level.pending = node :: rest)
    (h : (node.action (x.scope s.level.parameters)).outcome = .ok (.write lines)) :
    x.advance s = .on (s.stay (node.action (x.scope s.level.parameters)).log lines rest) := by
  simp only [advance, hpending, h]

/-- A step whose condition holds is replaced by the steps below it. -/
theorem advance_of_descend (hpending : s.level.pending = node :: rest)
    (h : (node.action (x.scope s.level.parameters)).outcome = .ok .descend) :
    x.advance s = .on (s.stay (node.action (x.scope s.level.parameters)).log [] (node.below ++ rest)) := by
  simp only [advance, hpending, h]

/-- An inclusion of an unknown library leaves a warning and a line in its place. -/
theorem advance_of_unknown (hpending : s.level.pending = node :: rest)
    (h : (node.action (x.scope s.level.parameters)).outcome = .ok (.enter name given))
    (hlibrary : x.libraries.get? name = none) :
    x.advance s = .on (s.stay ((node.action (x.scope s.level.parameters)).log ++ [missingWarning name])
      [missingLibrary name] rest) := by
  simp only [advance, hpending, h, hlibrary]

/-- A library that the chain refuses ends the expansion. -/
theorem advance_of_refused {e : IncludeError} (hpending : s.level.pending = node :: rest)
    (h : (node.action (x.scope s.level.parameters)).outcome = .ok (.enter name given))
    (hlibrary : x.libraries.get? name = some library) (hpush : s.chain.push name = .error e) :
    x.advance s =
      .over ⟨s.log ++ (node.action (x.scope s.level.parameters)).log, .error (.inclusion e)⟩ := by
  simp only [advance, hpending, h, hlibrary, hpush]

/-- A library that the chain accepts is entered. -/
theorem advance_of_room {longer : IncludeChain} (hpending : s.level.pending = node :: rest)
    (h : (node.action (x.scope s.level.parameters)).outcome = .ok (.enter name given))
    (hlibrary : x.libraries.get? name = some library) (hpush : s.chain.push name = .ok longer) :
    x.advance s =
      .on (s.enter (node.action (x.scope s.level.parameters)).log longer library given rest) := by
  simp only [advance, hpending, h, hlibrary, hpush]

/-- Behind the last step of a library the expansion goes back to the caller. -/
theorem advance_of_return {call : Call} {calls : List Call} (hpending : s.level.pending = [])
    (hcalls : s.calls = call :: calls) : x.advance s = .on (s.leave call calls) := by
  simp only [advance, hpending, hcalls]

/-- Behind the last step of all the expansion is over. -/
theorem advance_of_done (hpending : s.level.pending = []) (hcalls : s.calls = []) :
    x.advance s = .over ⟨s.log, .ok s.lines⟩ := by
  simp only [advance, hpending, hcalls]

/-- A moment before the end comes to the same end. -/
theorem EndsWith.head {t : Moment} {run : Run Failure (List Text)} (h : x.advance s = .on t)
    (hend : x.EndsWith t run) : x.EndsWith s run := by
  obtain ⟨last, hreaches, hlast⟩ := hend
  exact ⟨last, .head h hreaches, hlast⟩

end Moves

end Expander

/-- The machine does the steps of the level where it stands and leaves none of them, or it ends where they
fail. The calls around the level stay, and so does what was reported and written before. -/
def Expander.Does (x : Expander) (s : Moment) (run : Run Failure (List Text)) : Prop :=
  (∀ own, run.outcome = .ok own → x.Reaches s (s.stay run.log own [])) ∧
    ∀ e, run.outcome = .error e → x.EndsWith s ⟨s.log ++ run.log, .error e⟩

/-- Moves that stay on the level come before the steps that are done after them. -/
theorem Expander.Does.after {x : Expander} {s : Moment} {earlier : List Message} {before : List Text}
    {pending : List StepNode} {run : Run Failure (List Text)}
    (h : x.Does (s.stay earlier before pending) run) (hto : x.Reaches s (s.stay earlier before pending)) :
    x.Does s (run.after earlier before) := by
  constructor
  · intro own hown
    obtain ⟨more, hmore, rfl⟩ := Run.after_outcome_eq_ok.mp hown
    have hrest := h.1 more hmore
    simp only [Moment.stay, List.append_assoc] at hrest
    exact hto.trans hrest
  · intro e he
    obtain ⟨last, hreaches, hlast⟩ := h.2 e (Run.after_outcome_eq_error.mp he)
    simp only [Moment.stay, List.append_assoc] at hlast
    exact ⟨last, hto.trans hreaches, hlast⟩

/-- The machine does the steps of a level by the rules. -/
theorem Expands.does {x : Expander} {chain : IncludeChain} {p : Entries Value} {nodes : List StepNode}
    {run : Run Failure (List Text)} (h : Expands x chain p nodes run) (calls : List Call)
    (log : List Message) (lines : List Text) : x.Does ⟨chain, ⟨p, nodes⟩, calls, log, lines⟩ run := by
  induction h generalizing calls log lines with
  | nil =>
    refine ⟨fun own hown => ?_, fun e he => absurd he (by simp)⟩
    obtain rfl := Except.ok.inj hown
    simp only [Moment.stay, Run.log_pure, List.append_nil]
    exact .refl
  | fault h =>
    refine ⟨fun own hown => absurd hown (by simp), fun e he => ?_⟩
    obtain rfl := Except.error.inj he
    exact ⟨_, .refl, Expander.advance_of_fault rfl h⟩
  | write h _ ih => exact (ih calls _ _).after (.single (Expander.advance_of_write rfl h))
  | descend h _ ih => exact (ih calls _ _).after (.single (Expander.advance_of_descend rfl h))
  | unknown h hlibrary _ ih =>
    exact (ih calls _ _).after (.single (Expander.advance_of_unknown rfl h hlibrary))
  | refused h hlibrary hpush =>
    refine ⟨fun own hown => absurd hown (by simp), fun e he => ?_⟩
    obtain rfl := Except.error.inj he
    exact ⟨_, .refl, Expander.advance_of_refused rfl h hlibrary hpush⟩
  | @entered chain p node rest name given library longer inner own run h hlibrary hpush hinner hlines hrest
      ihinner ihrest =>
    refine (ihrest calls _ _).after ?_
    have hthrough := (ihinner (⟨library, given, p, rest⟩ :: calls) (log ++ (node.action (x.scope p)).log)
      lines).1 own hlines
    have hback := Expander.advance_of_return (x := x) (s := ⟨longer, ⟨Expander.enterWith library p given, []⟩,
      ⟨library, given, p, rest⟩ :: calls, log ++ (node.action (x.scope p)).log ++ inner.log, lines ++ own⟩)
      rfl rfl
    rw [Moment.leave, IncludeChain.left_of_push hpush] at hback
    have hin := Expander.advance_of_room (x := x) (s := ⟨chain, ⟨p, node :: rest⟩, calls, log, lines⟩) rfl h
      hlibrary hpush
    rw [Moment.stay, ← List.append_assoc]
    exact .head hin (hthrough.tail hback)
  | @failed chain p node rest name given library longer inner failure h hlibrary hpush hinner hfailure ih =>
    refine ⟨fun own hown => absurd hown (by simp), fun e he => ?_⟩
    obtain rfl := Except.error.inj he
    have hfails := (ih (⟨library, given, p, rest⟩ :: calls) (log ++ (node.action (x.scope p)).log)
      lines).2 failure hfailure
    rw [List.append_assoc] at hfails
    exact hfails.head (Expander.advance_of_room (s := ⟨chain, ⟨p, node :: rest⟩, calls, log, lines⟩) rfl h
      hlibrary hpush)

namespace Expander

variable {x : Expander} {d : Int} {p : Entries Value}

/-- Steps that are expanded by the rules on the empty chain are expanded so by the machine. -/
theorem endsWith_of_expands {nodes : List StepNode} {run : Run Failure (List Text)}
    (h : Expands x (.empty d) p nodes run) : x.EndsWith (.start d p nodes) run := by
  obtain ⟨hok, herror⟩ := h.does [] [] []
  obtain ⟨log, outcome⟩ := run
  cases outcome with
  | ok lines => exact ⟨_, hok lines rfl, advance_of_done rfl rfl⟩
  | error e => exact herror e rfl

/-- The machine ends with what expanding the steps of a test case gives. -/
theorem endsWith_expand (hd : x.maxDepth = some d) (htable : x.libraries.IsPlain) {steps : List Value}
    (hsteps : ∀ step ∈ steps, step.isPlain = true) :
    x.EndsWith (.start d p (StepNode.ofSteps true steps)) (x.expand p steps) :=
  endsWith_of_expands (expands_expand hd htable hsteps)

/-- The machine ends with what expanding a single inclusion gives. -/
theorem endsWith_expandInclusion (hd : x.maxDepth = some d) (htable : x.libraries.IsPlain) {step : Value}
    (hstep : step.isPlain = true) {name : Text} {given : Entries Value}
    (hsaid : StepNode.ofValue false step = .inclusion name given) :
    x.EndsWith (.start d p [.inclusion name given]) (x.expandInclusion p step) := by
  rw [expandInclusion_eq_expandNodes hd hsaid]
  refine endsWith_of_expands (expands htable fun node hnode => ?_)
  obtain rfl := List.mem_singleton.mp hnode
  exact ⟨false, step, hstep, trivial, hsaid.symm⟩

end Expander
end TestPlan
