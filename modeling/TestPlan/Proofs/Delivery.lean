import TestPlan.CommandLine.Run
import TestPlan.Proofs.Sequence

/-!
# How a run ends

A run has a report if its project is a directory and everything in it can be resolved (`HasReport`); without one
it stops with an error line, or because the project cannot even be looked at. A run with a report delivers the
text of the report, if it has one (`reportText`), and ends as that does: the text is printed, if standard output
takes it, or it is written to a file.
-/

namespace TestPlan.CommandLine

/-- The text of a report in the layout that settings ask for. -/
def reportText (s : Settings) (r : Report) : Except Failure Text := do
  let layout ← (layout s).mapError .layout
  return (← (r.value.json layout).mapError .report) ++ "\n"

/-- What a run says when its report is in its file. -/
def writtenMessage (path : Path) : Message := ⟨.info, "Report written to " ++ path.text⟩

variable [Runtime]

/-- Put the text of a report where settings say. -/
def putText (disk : Disk) (s : Settings) (text : Text) : Run Failure Delivery :=
  match Project.chosen? s.output with
  | none =>
    match refused? text with
    | none => pure ⟨text, disk, none⟩
    | some found => pure ⟨[], disk, some (.halves found)⟩
  | some output =>
    match writeFile disk (Path.ofText output) text with
    | .ok (changed, none) => ⟨[writtenMessage (Path.ofText output)], .ok ⟨[], changed, none⟩⟩
    | .ok (changed, some found) => pure ⟨[], changed, some (.halves found)⟩
    | .error e => Run.fail (.file e)

/-- A report is delivered by putting its text where settings say. -/
theorem deliver_eq (disk : Disk) (s : Settings) (r : Report) :
    deliver disk s r = Run.ofExcept (reportText s r) >>= putText disk s := by
  unfold deliver reportText
  cases layout s with
  | error fault => rfl
  | ok layout =>
    change (Run.ofExcept ((r.value.json layout).mapError Failure.report) >>= _) =
      (Run.ofExcept ((r.value.json layout).mapError Failure.report >>= _) >>= _)
    cases r.value.json layout with
    | error fault => rfl
    | ok json =>
      change (pure json >>= _) = (pure (json ++ "\n") >>= putText disk s)
      rw [pure_bind, pure_bind, putText]
      cases Project.chosen? s.output with
      | none => cases hrefused : refused? (json ++ "\n") <;> simp only [hrefused]
      | some output =>
        dsimp only
        cases writeFile disk (Path.ofText output) (json ++ "\n") with
        | error e => rfl
        | ok written =>
          obtain ⟨changed, _ | found⟩ := written <;> rfl

/-- Why a run stops without a report: its project cannot be looked at, is no directory, or cannot be
resolved. -/
inductive Stops (disk : Disk) (s : Settings) : List Message → Option Failure → Prop
  | unknown {e} (h : projectRoot disk s = .error e) : Stops disk s [] (some (.file e))
  | missing {root} (h : projectRoot disk s = .ok (root, false)) :
    Stops disk s [⟨.error, "Project directory not found: " ++ root.text⟩] none
  | failed {root failure} (h : projectRoot disk s = .ok (root, true))
    (hreport : (report disk root s).outcome = .error failure) :
    Stops disk s ((report disk root s).log ++ [⟨.error, "Error: " ++ failure.message⟩]) none

/-- A run has a report, and these are the messages before it is delivered. -/
inductive HasReport (disk : Disk) (s : Settings) : List Message → Report → Prop
  | intro {root r} (h : projectRoot disk s = .ok (root, true)) (hreport : (report disk root s).outcome = .ok r) :
    HasReport disk s (report disk root s).log r

variable {disk changed : Disk} {s : Settings} {r : Report} {log : List Message} {text output : Text}
  {failure : Failure} {escaped : Option Failure}

/-- Every run stops or has a report. -/
theorem stops_or_hasReport (disk : Disk) (s : Settings) :
    (∃ log escaped, Stops disk s log escaped) ∨ ∃ log r, HasReport disk s log r := by
  cases hroot : projectRoot disk s with
  | error e => exact .inl ⟨_, _, .unknown hroot⟩
  | ok found =>
    obtain ⟨root, _ | _⟩ := found
    · exact .inl ⟨_, _, .missing hroot⟩
    · cases hreport : (report disk root s).outcome with
      | error failure => exact .inl ⟨_, _, .failed hroot hreport⟩
      | ok r => exact .inr ⟨_, _, .intro hroot hreport⟩

/-- How a run is presented has no part in whether it stops. -/
theorem Stops.present (h : Stops disk s log escaped) (output : Option Text) (indent : Option Int) (quiet : Bool) :
    Stops disk { s with output, indent, quiet } log escaped := by
  cases h with
  | unknown h => exact .unknown h
  | missing h => exact .missing h
  | failed h hreport => exact .failed h hreport

/-- A run that stops exits with one, prints nothing and leaves the files alone. -/
theorem Stops.runWith_eq (h : Stops disk s log escaped) :
    runWith disk s = ⟨Display.shown s.quiet log, 1, [], disk, escaped⟩ := by
  cases h with
  | unknown h => simp only [runWith, h]
  | missing h => simp only [runWith, h]
  | failed h hreport => simp only [runWith, h, hreport]

namespace HasReport

/-- How a run is presented has no part in its report. -/
theorem present (h : HasReport disk s log r) (output : Option Text) (indent : Option Int) (quiet : Bool) :
    HasReport disk { s with output, indent, quiet } log r := by
  cases h with
  | intro h hreport => exact .intro h hreport

/-- A report that has no text ends its run with a failure that is not handled. -/
theorem runWith_of_textless (h : HasReport disk s log r) (htext : reportText s r = .error failure) :
    runWith disk s = ⟨Display.shown s.quiet log, 1, [], disk, some failure⟩ := by
  cases h with
  | intro h hreport =>
    have hdelivered : deliver disk s r = ⟨[], .error failure⟩ := by
      rw [deliver_eq, htext]
      rfl
    simp [runWith, h, hreport, hdelivered]

/-- A report that has a text ends its run as putting the text where settings say does. -/
theorem runWith_of_text (h : HasReport disk s log r) (htext : reportText s r = .ok text) {own : List Message}
    {delivery : Delivery} (hput : putText disk s text = ⟨own, .ok delivery⟩) :
    runWith disk s = ⟨Display.shown s.quiet (log ++ own), if delivery.failure.isSome then 1 else 0,
      delivery.printed, delivery.disk, delivery.failure⟩ := by
  cases h with
  | intro h hreport =>
    have hdelivered : deliver disk s r = ⟨own, .ok delivery⟩ := by
      rw [deliver_eq, htext, ← hput]
      exact pure_bind text (putText disk s)
    simp only [runWith, h, hreport, hdelivered]

/-- A text that goes to no file is printed, if standard output takes it. -/
theorem runWith_of_printed (h : HasReport disk s log r) (htext : reportText s r = .ok text)
    (houtput : Project.chosen? s.output = none) (htaken : refused? text = none) :
    runWith disk s = ⟨Display.shown s.quiet log, 0, text, disk, none⟩ := by
  have hput : putText disk s text = ⟨[], .ok ⟨text, disk, none⟩⟩ := by
    simp only [putText, houtput, htaken]
    rfl
  rw [h.runWith_of_text htext hput, List.append_nil]
  rfl

/-- A text that standard output refuses is not printed, and the run ends with the halves of characters in it. -/
theorem runWith_of_refused (h : HasReport disk s log r) (htext : reportText s r = .ok text)
    (houtput : Project.chosen? s.output = none) {found : Text.Halves} (hrefused : refused? text = some found) :
    runWith disk s = ⟨Display.shown s.quiet log, 1, [], disk, some (.halves found)⟩ := by
  have hput : putText disk s text = ⟨[], .ok ⟨[], disk, some (.halves found)⟩⟩ := by
    simp only [putText, houtput, hrefused]
    rfl
  rw [h.runWith_of_text htext hput, List.append_nil]
  rfl

/-- A text that can be written to its file is there when the run ends. -/
theorem runWith_of_written (h : HasReport disk s log r) (htext : reportText s r = .ok text)
    (houtput : Project.chosen? s.output = some output)
    (hwrite : writeFile disk (Path.ofText output) text = .ok (changed, none)) :
    runWith disk s =
      ⟨Display.shown s.quiet (log ++ [writtenMessage (Path.ofText output)]), 0, [], changed, none⟩ := by
  have hput : putText disk s text = ⟨[writtenMessage (Path.ofText output)], .ok ⟨[], changed, none⟩⟩ := by
    simp only [putText, houtput, hwrite]
  exact h.runWith_of_text htext hput

/-- A text with halves of characters in it leaves its file empty, and the run ends with them. -/
theorem runWith_of_halves (h : HasReport disk s log r) (htext : reportText s r = .ok text)
    (houtput : Project.chosen? s.output = some output) {found : Text.Halves}
    (hwrite : writeFile disk (Path.ofText output) text = .ok (changed, some found)) :
    runWith disk s = ⟨Display.shown s.quiet log, 1, [], changed, some (.halves found)⟩ := by
  have hput : putText disk s text = ⟨[], .ok ⟨[], changed, some (.halves found)⟩⟩ := by
    simp only [putText, houtput, hwrite]
    rfl
  rw [h.runWith_of_text htext hput, List.append_nil]
  rfl

/-- A file that cannot be written ends the run. -/
theorem runWith_of_unwritten (h : HasReport disk s log r) (htext : reportText s r = .ok text)
    (houtput : Project.chosen? s.output = some output) {e : FileError}
    (hwrite : writeFile disk (Path.ofText output) text = .error e) :
    runWith disk s = ⟨Display.shown s.quiet log, 1, [], disk, some (.file e)⟩ := by
  cases h with
  | intro h hreport =>
    have hdelivered : deliver disk s r = ⟨[], .error (.file e)⟩ := by
      rw [deliver_eq, htext]
      refine (pure_bind text (putText disk s)).trans ?_
      simp only [putText, houtput, hwrite]
      rfl
    simp [runWith, h, hreport, hdelivered]

/-- A run whose file does not take the text exits with one. -/
theorem code_of_untaken (h : HasReport disk s log r) (htext : reportText s r = .ok text)
    (houtput : Project.chosen? s.output = some output)
    (huntaken : ¬ ∃ changed, writeFile disk (Path.ofText output) text = .ok (changed, none)) :
    (runWith disk s).code = 1 := by
  cases hwrite : writeFile disk (Path.ofText output) text with
  | error e => rw [h.runWith_of_unwritten htext houtput hwrite]
  | ok written =>
    obtain ⟨changed, _ | found⟩ := written
    · exact absurd ⟨changed, hwrite⟩ huntaken
    · rw [h.runWith_of_halves htext houtput hwrite]

end HasReport
end TestPlan.CommandLine
