import TestPlan.Proofs.Delivery
import TestPlan.Proofs.Files.Creation
import TestPlan.Proofs.Json.Layout

/-!
# What presentation does not change

Three settings only decide how a run is presented. In quiet mode a run comes to the same outcome and shows only
the error lines of it, whatever the messages come from. A file holds what would be printed without it. And the
indentation decides about white space outside of string literals only (`presentation_only`). The runs that are
compared are made in one runtime: in another one the members of a set may come in another order.
-/

namespace TestPlan

/-- The first halves of a text begin with its first half. -/
theorem Text.code_firstHalves? (text : Text) :
    (firstHalves? Symbol.isHalf text).map (·.code) = (text.find? Symbol.isHalf).map Symbol.code := by
  have hhead : text.find? Symbol.isHalf = (text.dropWhile fun s => !s.isHalf).head? := by
    induction text with
    | nil => rfl
    | cons s rest ih => cases hs : s.isHalf <;> simp [hs, ih]
  rw [hhead]
  unfold firstHalves?
  cases text.dropWhile fun s => !s.isHalf <;> rfl

namespace CommandLine

/-- The outcome of a run of which only the error lines are shown. -/
def Outcome.onlyErrors (outcome : Outcome) : Outcome :=
  { outcome with shown := outcome.shown.filter (·.severity == .error) }

/-- In quiet mode the error lines are shown of what is shown otherwise. -/
theorem shown_quiet (quiet : Bool) (log : List Message) :
    Display.shown true log = (Display.shown quiet log).filter (·.severity == .error) := by
  rw [Display.shown, Display.shown, List.filter_filter]
  refine List.filter_congr fun m _ => ?_
  cases quiet <;> simp [Display.isShown]

/-- A quiet run is the same run with only its error lines shown. -/
theorem runWith_quiet [Runtime] (disk : Disk) (s : Settings) :
    runWith disk { s with quiet := true } = (runWith disk s).onlyErrors := by
  have hroot : projectRoot disk { s with quiet := true } = projectRoot disk s := rfl
  have hreport (root : Path) : report disk root { s with quiet := true } = report disk root s := rfl
  have hdeliver (r : Report) : deliver disk { s with quiet := true } r = deliver disk s r := rfl
  simp only [runWith, hroot, hreport, hdeliver, shown_quiet s.quiet]
  split
  · rfl
  · rfl
  · split
    · rfl
    · split <;> rfl

namespace Settings

/-- The same settings in quiet mode. -/
def inQuiet (s : Settings) : Settings := { s with quiet := true }

/-- An option does in quiet mode what it does otherwise. -/
theorem apply_inQuiet (s : Settings) (flag : Flag) (value : Option Text) :
    s.inQuiet.apply flag value = (s.apply flag value).map inQuiet := by
  cases flag with
  | indent | maxDepth =>
    cases h : value.mapM int <;> simp [apply, h, inQuiet, Except.map, bind, Except.bind, pure, Except.pure]
  | _ => rfl

/-- Settings after more options. -/
def applyAll (s : Settings) (options : List (Flag × Option Text)) : Except Stop Settings :=
  options.foldlM (fun (s : Settings) (flag, value) => s.apply flag value) s

/-- More options do in quiet mode what they do otherwise. -/
theorem applyAll_inQuiet (s : Settings) (options : List (Flag × Option Text)) :
    s.inQuiet.applyAll options = (s.applyAll options).map inQuiet := by
  induction options generalizing s with
  | nil => rfl
  | cons option rest ih =>
    obtain ⟨flag, value⟩ := option
    simp only [applyAll, List.foldlM_cons, apply_inQuiet]
    cases s.apply flag value with
    | error stop => rfl
    | ok next => exact ih next

/-- Arguments that are taken in quiet mode give the settings that they give otherwise, in quiet mode. -/
theorem take_inQuiet (fuel : Nat) (named extra : Bool) (s : Settings) (arguments : List Argument) :
    take fuel named extra s.inQuiet arguments = (take fuel named extra s arguments).map inQuiet := by
  induction fuel generalizing named extra s arguments with
  | zero =>
    cases arguments with
    | nil => cases extra <;> rfl
    | cons argument rest => rfl
  | succ fuel ih =>
    cases arguments with
    | nil => cases extra <;> rfl
    | cons argument rest =>
      cases argument with
      | option given =>
        simp only [take]
        cases unfold given rest with
        | error stop => rfl
        | ok found =>
          change (s.inQuiet.applyAll found.options >>= fun s => take fuel named extra s found.rest) =
            (s.applyAll found.options >>= fun s => take fuel named extra s found.rest).map inQuiet
          rw [applyAll_inQuiet]
          cases s.applyAll found.options with
          | error stop => rfl
          | ok next => exact ih named extra next found.rest
      | unknownOption => exact ih named true s rest
      | separator | word =>
        cases named with
        | true => exact ih true true s rest
        | false => exact ih true extra { s with project := _ } _

/-- An option for quiet mode in front of arguments gives their settings in quiet mode. -/
theorem ofTexts_quiet (arguments : List Text) :
    ofTexts ("--quiet" :: arguments) = (ofTexts arguments).map inQuiet := by
  have hquiet : Argument.ofText "--quiet" = .ok (.option ⟨.quiet, false, none⟩) := rfl
  have hseparator : ("--quiet" : Text) ≠ "--" := by decide
  rw [ofTexts, ofTexts, Argument.ofTexts, if_neg hseparator, hquiet]
  cases Argument.ofTexts arguments with
  | error stop => rfl
  | ok sorted => exact take_inQuiet (sorted.length + 1) false false default sorted

end Settings

/-- An option for quiet mode makes a run quiet. -/
theorem run_quiet [Runtime] (disk : Disk) (arguments : List Text) :
    run disk ("--quiet" :: arguments) = (run disk arguments).onlyErrors := by
  rw [run, run, Settings.ofTexts_quiet]
  cases Settings.ofTexts arguments with
  | error stop => rfl
  | ok s => exact runWith_quiet disk s

/-- A text is written by making the directories that its file is in and putting its bytes there. -/
theorem writeFile_eq_ok_iff {disk changed : Disk} {path : Path} {text : Text} :
    writeFile disk path text = .ok (changed, none) ↔ ∃ bytes made, Text.encode text = .ok bytes ∧
      disk.makeDirectories path.parent = .ok made ∧ made.writeBytes path bytes = .ok changed := by
  unfold writeFile
  cases Text.encode text with
  | error found =>
    cases disk.makeDirectories path.parent with
    | error e => simp [bind, Except.bind]
    | ok made => cases hwrite : made.writeBytes path [] <;> simp [hwrite, bind, Except.bind, pure, Except.pure]
  | ok bytes =>
    cases disk.makeDirectories path.parent with
    | error e => simp [bind, Except.bind]
    | ok made => cases hwrite : made.writeBytes path bytes <;> simp [hwrite, bind, Except.bind, pure, Except.pure]

/-- A file that has been written holds the bytes of its text. -/
theorem readBytes_of_writeFile {disk changed : Disk} {path : Path} {text : Text}
    (h : writeFile disk path text = .ok (changed, none)) :
    ∃ bytes, Text.encode text = .ok bytes ∧ changed.readBytes path = .ok bytes := by
  obtain ⟨bytes, made, hencode, -, hwrite⟩ := writeFile_eq_ok_iff.mp h
  exact ⟨bytes, hencode, Disk.readBytes_of_writeBytes hwrite⟩

/-- Standard output takes a text exactly if it is lenient or the text has no halves of characters in it. -/
theorem refused?_eq_none_iff [Runtime] {text : Text} :
    refused? text = none ↔ (Runtime.output = .strict → ∃ bytes, Text.encode text = .ok bytes) := by
  unfold refused?
  cases Runtime.output <;> cases Text.encode text <;> simp

/-- A run with a file succeeds exactly if it succeeds without and what it prints then can be written to the
file, and the file holds just that. -/
theorem runWith_output [Runtime] (disk : Disk) (s : Settings) {output : Text}
    (houtput : Project.chosen? s.output = some output) :
    let printing := runWith disk { s with output := none }
    let writing := runWith disk s
    (writing.code = 0 ↔ printing.code = 0 ∧
      ∃ changed, writeFile disk (Path.ofText output) printing.printed = .ok (changed, none)) ∧
    (writing.code = 0 → ∃ bytes, Text.encode printing.printed = .ok bytes ∧
      writing.disk.readBytes (Path.ofText output) = .ok bytes) := by
  intro printing writing
  rcases stops_or_hasReport disk s with ⟨log, escaped, hstops⟩ | ⟨log, r, hreport⟩
  · have hwriting : writing = _ := hstops.runWith_eq
    have hprinting : printing = _ := (hstops.present none s.indent s.quiet).runWith_eq
    simp [hwriting, hprinting]
  · have hreport' := hreport.present none s.indent s.quiet
    have htext' : reportText { s with output := none } r = reportText s r := rfl
    cases htext : reportText s r with
    | error failure =>
      have hwriting : writing = _ := hreport.runWith_of_textless htext
      have hprinting : printing = _ := hreport'.runWith_of_textless (htext'.trans htext)
      simp [hwriting, hprinting]
    | ok text =>
      -- Whether the file takes the text decides about the run with it. What it takes is printed without it.
      by_cases hwrite : ∃ changed, writeFile disk (Path.ofText output) text = .ok (changed, none)
      · obtain ⟨changed, hwrite⟩ := hwrite
        obtain ⟨bytes, hencode, hread⟩ := readBytes_of_writeFile hwrite
        have htaken : refused? text = none := refused?_eq_none_iff.mpr fun _ => ⟨bytes, hencode⟩
        have hwriting : writing = _ := hreport.runWith_of_written htext houtput hwrite
        have hprinting : printing = _ := hreport'.runWith_of_printed (htext'.trans htext) rfl htaken
        simp [hwriting, hprinting, hwrite, hencode, hread]
      · have hcode : writing.code = 1 := hreport.code_of_untaken htext houtput hwrite
        have hfails : writing.code ≠ 0 := hcode.symm ▸ Nat.one_ne_zero
        refine ⟨iff_of_false hfails fun ⟨hzero, htakes⟩ => ?_, fun hzero => absurd hzero hfails⟩
        cases hrefused : refused? text with
        | none =>
          have hprinting : printing = _ := hreport'.runWith_of_printed (htext'.trans htext) rfl hrefused
          rw [hprinting] at htakes
          exact hwrite htakes
        | some found =>
          have hprinting : printing = _ := hreport'.runWith_of_refused (htext'.trans htext) rfl hrefused
          rw [hprinting] at hzero
          exact absurd hzero nofun

/-- An indentation that is a machine word and fits into memory. -/
def IsIndent (indent : Int) : Prop := -(wordLimit : Int) ≤ indent ∧ indent < memoryLimit

/-- An indentation that fits gives lines, and a negative one gives them without blanks. -/
theorem layout_of_isIndent {s : Settings} {indent : Int} (h : IsIndent indent) (hs : s.indent = some indent) :
    layout s = .ok (.lines indent.toNat) := by
  have hlimits : (memoryLimit : Int) < wordLimit := by decide
  obtain ⟨hlow, hhigh⟩ := h
  simp only [layout, hs]
  rw [if_neg (by omega), if_neg (by omega)]

/-- There is a layout exactly for an indentation that fits. -/
theorem layout_eq_ok_iff {s : Settings} :
    (∃ l, layout s = .ok l) ↔ ∃ indent, s.indent = some indent ∧ IsIndent indent := by
  constructor
  · rintro ⟨l, hl⟩
    cases hindent : s.indent with
    | none => simp [layout, hindent] at hl
    | some indent =>
      simp only [layout, hindent] at hl
      split at hl
      · simp at hl
      next hword =>
        split at hl
        · simp at hl
        next hmemory =>
          exact ⟨indent, rfl, Int.not_lt.mp fun hlow => hword (.inr hlow), Int.not_le.mp hmemory⟩
  · rintro ⟨indent, hs, hindent⟩
    exact ⟨_, layout_of_isIndent hindent hs⟩

/-- A report that has a text has an indentation that fits. -/
theorem isIndent_of_reportText {s : Settings} {r : Report} {indent : Int} {text : Text}
    (hs : s.indent = some indent)
    (h : reportText s r = .ok text) : IsIndent indent := by
  unfold reportText at h
  cases hlayout : layout s with
  | error fault => simp [hlayout, Except.mapError, bind, Except.bind] at h
  | ok l =>
    obtain ⟨own, hown, hindent⟩ := layout_eq_ok_iff.mp ⟨l, hlayout⟩
    exact Option.some.inj (hs.symm.trans hown) ▸ hindent

/-- The texts of a report in two indentations are one document, or there is none for the same reason. -/
theorem reportText_same (s : Settings) (r : Report) {i j : Int} (hi : IsIndent i) (hj : IsIndent j) :
    SameResult SameDocument (reportText { s with indent := some i } r)
      (reportText { s with indent := some j } r) := by
  rw [reportText, reportText, layout_of_isIndent hi rfl, layout_of_isIndent hj rfl]
  have hline : SameDocument "\n" "\n" := .of_unquoted (by decide)
  exact ((r.value.json_same i.toNat j.toNat).mapError Failure.report).bind fun _ _ h => .ok (h.append hline)

/-- The texts of a report in any two indentations are equal without the white space outside of literals. -/
theorem reportText_squeezed {s : Settings} {r : Report} {i j : Int} {text text' : Text}
    (h : reportText { s with indent := some i } r = .ok text)
    (h' : reportText { s with indent := some j } r = .ok text') :
    JsonPlace.outside.squeeze text = JsonPlace.outside.squeeze text' := by
  have hsame := reportText_same s r (isIndent_of_reportText rfl h) (isIndent_of_reportText rfl h')
  rw [h, h'] at hsame
  cases hsame with
  | ok hsame => exact hsame.squeezed

/-- A run that exits with zero has an indentation that fits. -/
theorem isIndent_of_code [Runtime] {disk : Disk} {s : Settings} {indent : Int} (hs : s.indent = some indent)
    (h : (runWith disk s).code = 0) : IsIndent indent := by
  rcases stops_or_hasReport disk s with ⟨log, escaped, hstops⟩ | ⟨log, r, hreport⟩
  · rw [hstops.runWith_eq] at h
    exact absurd h nofun
  · cases htext : reportText s r with
    | ok text => exact isIndent_of_reportText hs htext
    | error failure =>
      rw [hreport.runWith_of_textless htext] at h
      exact absurd h nofun

/-- Failures of two runs are alike: they are equal, or they are about halves of characters, of which the first ones
are equal and only the places differ. -/
inductive Alike : Failure → Failure → Prop
  | refl (failure) : Alike failure failure
  | halves {found found' : Text.Halves} (h : found.code = found'.code) : Alike (.halves found) (.halves found')

/-- Two runs end alike: they show the same, exit with the same code and leave the same files, and nothing escapes
from them, or failures that are alike. -/
structure Outcome.EndsLike (first second : Outcome) : Prop where
  shown : first.shown = second.shown
  code : first.code = second.code
  disk : first.disk = second.disk
  escaped : Option.Rel Alike first.escaped second.escaped

/-- Every run ends like itself, whatever it prints. -/
theorem Outcome.EndsLike.of_eq {first second : Outcome} (h : first = { second with printed := first.printed }) :
    first.EndsLike second := by
  rw [h]
  refine ⟨rfl, rfl, rfl, ?_⟩
  cases second.escaped with
  | none => exact .none
  | some failure => exact .some (.refl failure)

/-- Standard output refuses one document in all of its layouts, over the same half, or in none. -/
theorem refused?_same [Runtime] {text text' : Text} (h : SameDocument text text') :
    (refused? text).map (·.code) = (refused? text').map (·.code) := by
  have hcode (text : Text) : (refused? text).map (·.code) =
      if Runtime.output = .strict then ((JsonPlace.outside.squeeze text).find? Symbol.isHalf).map Symbol.code
      else none := by
    rw [JsonPlace.find?_squeeze, ← Text.code_firstHalves?]
    unfold refused? Text.encode
    cases Runtime.output <;> cases Text.firstHalves? Symbol.isHalf text <;> rfl
  rw [hcode, hcode, h.squeezed]

/-- What a run prints in two indentations is one document, and the run ends alike. -/
theorem runWith_indent [Runtime] (disk : Disk) (s : Settings) {i j : Int} (hi : IsIndent i) (hj : IsIndent j) :
    let first := runWith disk { s with indent := some i, output := none }
    let second := runWith disk { s with indent := some j, output := none }
    JsonPlace.outside.squeeze first.printed = JsonPlace.outside.squeeze second.printed ∧ first.EndsLike second := by
  intro first second
  rcases stops_or_hasReport disk s with ⟨log, escaped, hstops⟩ | ⟨log, r, hreport⟩
  · have hfirst : first = _ := (hstops.present none (some i) s.quiet).runWith_eq
    have hsecond : second = _ := (hstops.present none (some j) s.quiet).runWith_eq
    rw [hfirst, hsecond]
    exact ⟨rfl, .of_eq rfl⟩
  · have htext (indent : Option Int) :
        reportText { s with indent, output := none } r = reportText { s with indent } r := rfl
    have hreport' (indent : Option Int) := hreport.present none indent s.quiet
    rcases (reportText_same s r hi hj).elim with ⟨text, text', hok, hok', hsame⟩ | ⟨failure, hfault, hfault'⟩
    · have hrefused := refused?_same hsame
      cases hfound : refused? text with
      | none =>
        have hfound' : refused? text' = none := Option.map_eq_none_iff.mp (by rw [← hrefused, hfound]; rfl)
        have hfirst : first = _ := (hreport' (some i)).runWith_of_printed ((htext _).trans hok) rfl hfound
        have hsecond : second = _ := (hreport' (some j)).runWith_of_printed ((htext _).trans hok') rfl hfound'
        rw [hfirst, hsecond]
        exact ⟨hsame.squeezed, .of_eq rfl⟩
      | some found =>
        obtain ⟨found', hfound', hcode⟩ : ∃ found', refused? text' = some found' ∧ found'.code = found.code :=
          Option.map_eq_some_iff.mp (by rw [← hrefused, hfound]; rfl)
        have hfirst : first = _ := (hreport' (some i)).runWith_of_refused ((htext _).trans hok) rfl hfound
        have hsecond : second = _ := (hreport' (some j)).runWith_of_refused ((htext _).trans hok') rfl hfound'
        rw [hfirst, hsecond]
        exact ⟨rfl, rfl, rfl, rfl, .some (.halves hcode.symm)⟩
    · have hfirst : first = _ := (hreport' (some i)).runWith_of_textless ((htext _).trans hfault)
      have hsecond : second = _ := (hreport' (some j)).runWith_of_textless ((htext _).trans hfault')
      rw [hfirst, hsecond]
      exact ⟨rfl, .of_eq rfl⟩

/-- Presentation never changes a report. A quiet run is the run without the option, of which only the error lines
are shown. A run with a file succeeds exactly if what the run without prints can be written there, and the file
holds just that. The texts of a report in any two indentations are one document, and so is what is printed in them;
all else is the same in any two that fit. -/
theorem presentation_only [Runtime] (disk : Disk) (s : Settings) :
    (runWith disk { s with quiet := true } = (runWith disk s).onlyErrors ∧
      ∀ arguments, run disk ("--quiet" :: arguments) = (run disk arguments).onlyErrors) ∧
    (∀ output, Project.chosen? s.output = some output →
      let printing := runWith disk { s with output := none }
      let writing := runWith disk s
      (writing.code = 0 ↔ printing.code = 0 ∧
        ∃ changed, writeFile disk (Path.ofText output) printing.printed = .ok (changed, none)) ∧
      (writing.code = 0 → ∃ bytes, Text.encode printing.printed = .ok bytes ∧
        writing.disk.readBytes (Path.ofText output) = .ok bytes)) ∧
    ∀ i j,
      let first := runWith disk { s with indent := some i, output := none }
      let second := runWith disk { s with indent := some j, output := none }
      (∀ r text text', reportText { s with indent := some i } r = .ok text →
        reportText { s with indent := some j } r = .ok text' →
        JsonPlace.outside.squeeze text = JsonPlace.outside.squeeze text') ∧
      (first.code = 0 → second.code = 0 →
        JsonPlace.outside.squeeze first.printed = JsonPlace.outside.squeeze second.printed) ∧
      (IsIndent i → IsIndent j → first.EndsLike second) :=
  ⟨⟨runWith_quiet disk s, run_quiet disk⟩, fun _ => runWith_output disk s, fun _ _ =>
    ⟨fun _ _ _ => reportText_squeezed,
      fun hi hj => (runWith_indent disk s (isIndent_of_code rfl hi) (isIndent_of_code rfl hj)).1,
      fun hi hj => (runWith_indent disk s hi hj).2⟩⟩

section
attribute [local instance] Runtime.plain

/-- The report on a single empty test case goes to a file in a directory that is not there yet, and it is the same
document without indentation and with a negative one. -/
theorem presentation_only_of_file :
    let disk : Disk := ⟨.directory [(FileName.ofText "test-cases", .directory
      [(FileName.ofText "a.yml", .file [0x7b, 0x7d])])], []⟩
    let s : Settings := { Settings.default with output := some "out/report.json" }
    let indented (indent : Int) : Outcome := runWith disk { s with indent := some indent, output := none }
    (runWith disk s).code = 0 ∧
      (∃ bytes, Text.encode (runWith disk { s with output := none }).printed = .ok bytes ∧
        (runWith disk s).disk.readBytes ⟨.current, ["out", "report.json"]⟩ = .ok bytes) ∧
      JsonPlace.outside.squeeze (indented 0).printed = JsonPlace.outside.squeeze (indented (-3)).printed ∧
      (indented 0).EndsLike (indented (-3)) := by
  intro disk s indented
  obtain ⟨-, hwriting, hindents⟩ := presentation_only disk s
  have hcode : (runWith disk s).code = 0 := by decide +kernel
  have hprinted : (indented 0).code = 0 ∧ (indented (-3)).code = 0 := by decide +kernel
  exact ⟨hcode, (hwriting "out/report.json" rfl).2 hcode, (hindents 0 (-3)).2.1 hprinted.1 hprinted.2,
    (hindents 0 (-3)).2.2 ⟨by decide, by decide⟩ ⟨by decide, by decide⟩⟩

end
end CommandLine
end TestPlan
