import TestPlan.Proofs.Json.Form
import TestPlan.Proofs.Presentation

/-!
# Which reports are delivered

Resolving a project can succeed and its report still not come out. Where its file can be written, a report is
delivered exactly if the indentation fits, everything that it copies from definitions has a JSON form, and a text
that goes to a file, or to standard output that is strict, has no halves of characters in it (`IsDeliverable`).
Otherwise the run ends with a failure that it does not handle: nothing is printed, and there is no error line
(`delivered_iff`).
-/

namespace TestPlan

/-- What is written to a file has no part in whether it can be written. -/
theorem Disk.exists_writeBytes {disk changed : Disk} {path : Path} {old : List UInt8}
    (h : disk.writeBytes path old = .ok changed) (bytes : List UInt8) :
    ∃ changed, disk.writeBytes path bytes = .ok changed := by
  unfold writeBytes at h ⊢
  cases hresolve : disk.resolve path with
  | ok found =>
    obtain ⟨names, content | entries⟩ := found
    · exact ⟨_, rfl⟩
    · simp [hresolve] at h
  | error e =>
    cases e with
    | notFound =>
      cases hplace : disk.place path with
      | ok names => exact ⟨_, rfl⟩
      | error e => simp [hresolve, hplace, bind, Except.bind] at h
    | _ => simp [hresolve] at h

namespace CommandLine

variable {disk : Disk} {s : Settings} {r : Report} {log : List Message} {path : Path}

/-- A path takes a file: an empty text can be written there. -/
def TakesFile (disk : Disk) (path : Path) : Prop := ∃ changed, writeFile disk path [] = .ok (changed, none)

/-- Where a file can be, writing a text goes wrong only over halves of characters. -/
theorem TakesFile.writeFile_eq (h : TakesFile disk path) (text : Text) :
    ∃ changed, writeFile disk path text = .ok (changed, match Text.encode text with
      | .ok _ => none
      | .error found => some found) := by
  obtain ⟨empty, hempty⟩ := h
  obtain ⟨old, made, -, hmade, hwrite⟩ := writeFile_eq_ok_iff.mp hempty
  unfold writeFile
  cases Text.encode text with
  | ok bytes =>
    obtain ⟨changed, hwrite⟩ := Disk.exists_writeBytes hwrite bytes
    exact ⟨changed, by simp [hmade, hwrite, bind, Except.bind, pure, Except.pure]⟩
  | error found =>
    obtain ⟨changed, hwrite⟩ := Disk.exists_writeBytes hwrite []
    exact ⟨changed, by simp [hmade, hwrite, bind, Except.bind, pure, Except.pure]⟩

/-- A report has a text exactly if its indentation fits and it can be written. -/
theorem reportText_eq_ok_iff : (∃ text, reportText s r = .ok text) ↔
    (∃ indent, s.indent = some indent ∧ IsIndent indent) ∧ r.IsWritable := by
  rw [← layout_eq_ok_iff]
  unfold reportText
  cases layout s with
  | error fault => simp [Except.mapError, bind, Except.bind]
  | ok l =>
    rw [← @Report.json_eq_ok_iff l r]
    cases hjson : r.value.json l <;> simp [Except.mapError, hjson, bind, Except.bind, pure, Except.pure]

/-- Why a report is not delivered to a file that can be written, or printed. -/
inductive Hinders (s : Settings) (r : Report) : Failure → Prop
  | layout {fault} (h : layout s = .error fault) : Hinders s r (.layout fault)
  | report {fault} (h : ¬r.IsWritable) : Hinders s r (.report fault)
  | halves {text found} (htext : reportText s r = .ok text) (h : Text.encode text = .error found) :
    Hinders s r (.halves found)

/-- A report without a text has an indentation that does not fit, or it cannot be written. -/
theorem Hinders.of_textless {failure : Failure} (h : reportText s r = .error failure) : Hinders s r failure := by
  unfold reportText at h
  cases hlayout : CommandLine.layout s with
  | error fault =>
    rw [hlayout] at h
    cases h
    exact .layout hlayout
  | ok l =>
    rw [hlayout] at h
    cases hjson : r.value.json l with
    | error fault =>
      simp only [Except.mapError, hjson, bind, Except.bind] at h
      cases h
      refine .report fun hwritable => ?_
      obtain ⟨json, hok⟩ := Report.json_eq_ok_iff.mpr hwritable
      exact absurd (hjson.symm.trans hok) nofun
    | ok json => simp [Except.mapError, hjson, bind, Except.bind, pure, Except.pure] at h

section
variable [Runtime]

/-- Nothing stands in the way of delivering a report. -/
structure IsDeliverable (s : Settings) (r : Report) : Prop where
  indent : ∃ indent, s.indent = some indent ∧ IsIndent indent
  report : r.IsWritable
  /-- a text that goes to a file, or to standard output that is strict, has no halves of characters in it -/
  whole : (Project.chosen? s.output).isSome ∨ Runtime.output = .strict →
    ∀ text, reportText s r = .ok text → ∃ bytes, Text.encode text = .ok bytes

/-- A run has delivered a text: it is printed, or it is in its file and nothing is printed. -/
def Delivers (s : Settings) (outcome : Outcome) (text : Text) : Prop :=
  match Project.chosen? s.output with
  | none => outcome.printed = text
  | some output => outcome.printed = [] ∧ ∃ bytes, Text.encode text = .ok bytes ∧
      outcome.disk.readBytes (Path.ofText output) = .ok bytes

/-- A report that nothing stands in the way of is delivered, and its run exits with zero. -/
theorem HasReport.delivers (h : HasReport disk s log r)
    (hfile : ∀ output, Project.chosen? s.output = some output → TakesFile disk (Path.ofText output))
    (hall : IsDeliverable s r) :
    let outcome := runWith disk s
    outcome.code = 0 ∧ outcome.escaped = none ∧
      ∃ text, reportText s r = .ok text ∧ Delivers s outcome text := by
  intro outcome
  obtain ⟨text, htext⟩ := reportText_eq_ok_iff.mpr ⟨hall.indent, hall.report⟩
  cases houtput : Project.chosen? s.output with
  | none =>
    have htaken : refused? text = none := refused?_eq_none_iff.mpr fun hstrict =>
      hall.whole (.inr hstrict) text htext
    have houtcome : outcome = _ := h.runWith_of_printed htext houtput htaken
    rw [houtcome]
    exact ⟨rfl, rfl, text, htext, by rw [Delivers, houtput]⟩
  | some output =>
    obtain ⟨changed, hwrite⟩ := (hfile output houtput).writeFile_eq text
    obtain ⟨bytes, hencode⟩ := hall.whole (.inl (by simp [houtput])) text htext
    rw [hencode] at hwrite
    have houtcome : outcome = _ := h.runWith_of_written htext houtput hwrite
    rw [houtcome]
    refine ⟨rfl, rfl, text, htext, ?_⟩
    rw [Delivers, houtput]
    exact ⟨rfl, readBytes_of_writeFile hwrite⟩

/-- What hinders a text from being printed hinders it from being encoded. -/
theorem encode_of_refused? {text : Text} {found : Text.Halves} (h : refused? text = some found) :
    Text.encode text = .error found := by
  unfold refused? at h
  split at h
  next hencode => exact Option.some.inj h ▸ hencode
  next => cases h

/-- A report that something stands in the way of ends its run with a failure that is not handled. -/
theorem HasReport.escapes (h : HasReport disk s log r)
    (hfile : ∀ output, Project.chosen? s.output = some output → TakesFile disk (Path.ofText output))
    (hnot : ¬IsDeliverable s r) :
    let outcome := runWith disk s
    outcome.code = 1 ∧ outcome.printed = [] ∧
      ∃ failure, outcome.escaped = some failure ∧ Hinders s r failure := by
  intro outcome
  cases htext : reportText s r with
  | error failure =>
    have houtcome : outcome = _ := h.runWith_of_textless htext
    rw [houtcome]
    exact ⟨rfl, rfl, failure, rfl, .of_textless htext⟩
  | ok text =>
    -- The report has a text, so it is its file or standard output that does not take it.
    obtain ⟨hindent, hreport⟩ := reportText_eq_ok_iff.mp ⟨text, htext⟩
    have hwhole : ¬((Project.chosen? s.output).isSome ∨ Runtime.output = .strict →
        ∃ bytes, Text.encode text = .ok bytes) := by
      refine fun hwhole => hnot ⟨hindent, hreport, fun hgoes text' htext' => ?_⟩
      cases htext.symm.trans htext'
      exact hwhole hgoes
    obtain ⟨hgoes, hencode⟩ := Classical.not_imp.mp hwhole
    cases houtput : Project.chosen? s.output with
    | none =>
      have hstrict : Runtime.output = .strict := hgoes.resolve_left (by simp [houtput])
      cases hrefused : refused? text with
      | none => exact absurd (refused?_eq_none_iff.mp hrefused hstrict) hencode
      | some found =>
        have houtcome : outcome = _ := h.runWith_of_refused htext houtput hrefused
        rw [houtcome]
        exact ⟨rfl, rfl, _, rfl, .halves htext (encode_of_refused? hrefused)⟩
    | some output =>
      obtain ⟨changed, hwrite⟩ := (hfile output houtput).writeFile_eq text
      cases hfound : Text.encode text with
      | ok bytes => exact absurd ⟨bytes, hfound⟩ hencode
      | error found =>
        rw [hfound] at hwrite
        have houtcome : outcome = _ := h.runWith_of_halves htext houtput hwrite
        rw [houtcome]
        exact ⟨rfl, rfl, _, rfl, .halves htext hfound⟩

/-- Where its file can be written, a report is delivered exactly if nothing stands in the way, and then the run
exits with zero. Otherwise the run ends with a failure that it does not handle, for one of three reasons. -/
theorem delivered_iff (h : HasReport disk s log r)
    (hfile : ∀ output, Project.chosen? s.output = some output → TakesFile disk (Path.ofText output)) :
    let outcome := runWith disk s
    (outcome.escaped = none ↔ IsDeliverable s r) ∧
    (outcome.escaped = none →
      outcome.code = 0 ∧ ∃ text, reportText s r = .ok text ∧ Delivers s outcome text) ∧
    ∀ failure, outcome.escaped = some failure →
      outcome.code = 1 ∧ outcome.printed = [] ∧ Hinders s r failure := by
  intro outcome
  by_cases hall : IsDeliverable s r
  · obtain ⟨hcode, hescaped, hdelivers⟩ := h.delivers hfile hall
    exact ⟨iff_of_true hescaped hall, fun _ => ⟨hcode, hdelivers⟩,
      fun failure hfailure => absurd (hescaped.symm.trans hfailure) nofun⟩
  · obtain ⟨hcode, hprinted, failure, hescaped, hhinders⟩ := h.escapes hfile hall
    have hsome : outcome.escaped ≠ none := fun hnone => absurd (hescaped.symm.trans hnone) nofun
    refine ⟨iff_of_false hsome hall, fun hnone => absurd hnone hsome, fun failure' hfailure => ?_⟩
    cases hescaped.symm.trans hfailure
    exact ⟨hcode, hprinted, hhinders⟩

end

section
attribute [local instance] Runtime.plain

/-- A report on a test case whose steps are no loop goes to its file. -/
theorem delivered_iff_of_file :
    let content : Text := "\x7b\"steps\": [\"go\", \x7b\"1\": [\"x\"]\x7d]\x7d"
    let disk : Disk := ⟨.directory [(FileName.ofText "test-cases", .directory
      [(FileName.ofText "a.yml", .file (content.flatMap Text.utf8))])], []⟩
    let s : Settings := { Settings.default with output := some "report.json" }
    ∃ log r text, HasReport disk s log r ∧ TakesFile disk (Path.ofText "report.json") ∧ IsDeliverable s r ∧
      reportText s r = .ok text ∧ Delivers s (runWith disk s) text := by
  intro content disk s
  have hcode : (runWith disk s).code = 0 := by decide +kernel
  have htakes : TakesFile disk (Path.ofText "report.json") := by
    have hempty : (writeFile disk (Path.ofText "report.json") []).map (·.2) = .ok none := by decide +kernel
    cases hwrite : writeFile disk (Path.ofText "report.json") [] with
    | error e => simp [hwrite, Except.map] at hempty
    | ok written =>
      rw [hwrite] at hempty
      exact ⟨written.1, by rw [hwrite, ← Except.ok.inj hempty]⟩
  have hfile : ∀ output, Project.chosen? s.output = some output → TakesFile disk (Path.ofText output) := by
    intro output houtput
    cases houtput
    exact htakes
  rcases stops_or_hasReport disk s with ⟨log, escaped, hstops⟩ | ⟨log, r, h⟩
  · rw [hstops.runWith_eq] at hcode
    exact absurd hcode nofun
  · obtain ⟨hiff, hdelivers, hescapes⟩ := delivered_iff h hfile
    have hescaped : (runWith disk s).escaped = none := by
      cases hescaped : (runWith disk s).escaped with
      | none => rfl
      | some failure => exact absurd (hcode.symm.trans (hescapes failure hescaped).1) nofun
    obtain ⟨-, text, htext, htaken⟩ := hdelivers hescaped
    exact ⟨log, r, text, h, htakes, hiff.mp hescaped, htext, htaken⟩

/-- A test case with a list of steps that contains itself takes the command down: there is a report, but nothing is
written, and no error is shown. -/
theorem undelivered_loop :
    let content : Text := "\x7b\"steps\": &a [*a ]\x7d"
    let disk : Disk := ⟨.directory [(FileName.ofText "test-cases", .directory
      [(FileName.ofText "a.yml", .file (content.flatMap Text.utf8))])], []⟩
    let outcome := runWith disk .default
    (∃ log r, HasReport disk .default log r) ∧ outcome.code = 1 ∧ outcome.printed = [] ∧
      (∀ message ∈ outcome.shown, message.severity ≠ .error) ∧ outcome.escaped = some (.report .circular) := by
  intro content disk outcome
  have hescaped : outcome.escaped = some (.report .circular) := by decide +kernel
  have hsilent : outcome.code = 1 ∧ outcome.printed = [] ∧
      ∀ message ∈ outcome.shown, message.severity ≠ .error := by
    decide +kernel
  refine ⟨(stops_or_hasReport disk .default).resolve_left ?_, hsilent.1, hsilent.2.1, hsilent.2.2, hescaped⟩
  rintro ⟨log, escaped, hstops⟩
  have hstopped : outcome = _ := hstops.runWith_eq
  rw [hstopped] at hescaped
  cases hstops <;> exact absurd hescaped nofun

end
end CommandLine
end TestPlan
