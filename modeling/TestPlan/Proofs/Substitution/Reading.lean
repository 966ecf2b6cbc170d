import Mathlib.Data.List.TakeWhile
import TestPlan.Proofs.StepText
import TestPlan.Proofs.Substitution

/-!
# Templates taken apart

A template can be taken apart in one way only into placeholders and what stands between them, if each
placeholder is to begin at the first place behind the one before it at which one can begin
(`Template.Reading.IsLeftmost`). Filling the template puts texts in the places of the placeholders of that
reading and changes nothing else (`Template.complete_of_reading`), and whatever is put there is not looked at
again.
-/

namespace TestPlan.Template

variable {text body : Text} {scope : Scope}

/-- A text taken apart: placeholders, each with the text before it, and the text behind the last one. -/
inductive Reading
  | last (text : Text)
  | token (before body : Text) (rest : Reading)
  deriving DecidableEq

namespace Reading

/-- The text that was taken apart. -/
def source : Reading → Text
  | last text => text
  | token before body rest => before ++ (Piece.placeholder body).source ++ rest.source

/-- Each placeholder begins at the first place behind the one before it at which one can begin, and none begins
behind the last one. -/
def IsLeftmost : Reading → Prop
  | last text => OpensNowhere text []
  | token before body rest =>
    IsBody body ∧ OpensNowhere before ((Piece.placeholder body).source ++ rest.source) ∧ rest.IsLeftmost

/-- What the placeholders hold, in order. -/
def bodies : Reading → List Text
  | last _ => []
  | token _ body rest => body :: rest.bodies

/-- The text with other texts in the places of the placeholders. -/
def replaced (value : Text → Text) : Reading → Text
  | last text => text
  | token before body rest => before ++ value body ++ rest.replaced value

/-- The pieces of the text: every symbol that is in no placeholder is a piece of its own. -/
def pieces : Reading → List Piece
  | last text => text.map .symbol
  | token before body rest => before.map .symbol ++ .placeholder body :: rest.pieces

/-- A reading of a text with one more symbol at the start. -/
def cons (s : Symbol) : Reading → Reading
  | last text => last (s :: text)
  | token before body rest => token (s :: before) body rest

/-- A symbol in front of a reading is in front of its text. -/
@[simp] theorem source_cons (s : Symbol) (r : Reading) : (r.cons s).source = s :: r.source := by
  cases r <;> simp [cons, source]

/-- A symbol that opens no placeholder may come before a leftmost reading. -/
theorem IsLeftmost.cons {r : Reading} (h : r.IsLeftmost) (hs : ¬ Opens (s :: r.source)) :
    (r.cons s).IsLeftmost := by
  cases r with
  | last text => exact OpensNowhere.cons (by simpa [source] using hs) h
  | token before body rest =>
    obtain ⟨hbody, hbefore, hrest⟩ := h
    exact ⟨hbody, OpensNowhere.cons (by simpa [source] using hs) hbefore, hrest⟩

/-- The pieces of a reading from the left are those that are found from left to right. -/
theorem IsLeftmost.pieces_source {r : Reading} (h : r.IsLeftmost) : Template.pieces r.source = r.pieces := by
  induction r with
  | last text => exact OpensNowhere.pieces_eq h
  | token before body rest ih =>
    obtain ⟨hbody, hbefore, hrest⟩ := h
    have hplaceholder : placeholder? ((Piece.placeholder body).source ++ rest.source) = some (body, rest.source) :=
      placeholder?_eq_some_iff.mpr ⟨rfl, hbody.ne_nil, hbody.closing⟩
    rw [source, List.append_assoc, hbefore.pieces_append, pieces_of_placeholder hplaceholder, ih hrest, pieces]

/-- The reading with these pieces. -/
def ofPieces : List Piece → Reading
  | [] => last []
  | .symbol s :: rest => (ofPieces rest).cons s
  | .placeholder body :: rest => token [] body (ofPieces rest)

/-- The pieces tell the reading. -/
theorem ofPieces_pieces (r : Reading) : ofPieces r.pieces = r := by
  induction r with
  | last text =>
    induction text with
    | nil => rfl
    | cons s rest ih => exact congrArg (Reading.cons s) ih
  | token before body rest ih =>
    induction before with
    | nil => exact congrArg (token [] body) ih
    | cons s before ihbefore => exact congrArg (Reading.cons s) ihbefore

/-- A text read from the left. -/
def fromLeft (text : Text) : Reading := ofPieces (Template.pieces text)

/-- Reading a text from the left takes it apart, and each placeholder is the first that it can be. -/
theorem fromLeft_isLeftmost (text : Text) : (fromLeft text).source = text ∧ (fromLeft text).IsLeftmost := by
  unfold fromLeft
  fun_induction Template.pieces text with
  | case1 text body after h _ ih =>
    obtain ⟨hsource, hne, hclosing⟩ := placeholder?_eq_some_iff.mp h
    refine ⟨?_, ⟨hne, hclosing⟩, opensNowhere_nil _, ih.2⟩
    rw [hsource, ofPieces, source, ih.1, List.nil_append]
  | case2 => exact ⟨rfl, opensNowhere_nil []⟩
  | case3 s rest h ih =>
    have hs : ¬ Opens (s :: (ofPieces (Template.pieces rest)).source) := by
      rw [ih.1]
      exact placeholder?_eq_none_iff.mp h
    exact ⟨(source_cons s _).trans (congrArg (List.cons s) ih.1), ih.2.cons hs⟩

/-- There is no other way to read a text so that each placeholder is the first that it can be. -/
theorem isLeftmost_iff {r : Reading} {text : Text} :
    r.source = text ∧ r.IsLeftmost ↔ r = fromLeft text := by
  constructor
  · rintro ⟨rfl, hr⟩
    rw [fromLeft, hr.pieces_source, ofPieces_pieces]
  · rintro rfl
    exact fromLeft_isLeftmost text

/-- Whether a reading is leftmost is decided place by place. -/
instance (r : Reading) : Decidable r.IsLeftmost :=
  decidable_of_iff (r = fromLeft r.source) (isLeftmost_iff.symm.trans (and_iff_right rfl))

end Reading

/-- What a scope puts in the place of a placeholder: the text of the parameter of that name, otherwise of the
variable of the environment, otherwise the placeholder as it is written. -/
def replacement (scope : Scope) (body : Text) : Text :=
  match scope.parameters.find? (Text.trim body), scope.environment.find? (Text.trim body) with
  | some parameter, _ => parameter.parameterText
  | none, some var => var.parameterText
  | none, none => (Piece.placeholder body).source

/-- The warnings about placeholders, one for each whose name is neither a parameter nor a variable. -/
def warnings (scope : Scope) (bodies : List Text) : List Message :=
  (bodies.filter fun body => (scope.parameters.find? (Text.trim body)).isNone &&
    (scope.environment.find? (Text.trim body)).isNone).map fun body => unboundWarning (Text.trim body)

/-- A placeholder is filled with its replacement. -/
theorem fill_placeholder (scope : Scope) (body : Text) :
    (Piece.placeholder body).fill scope = replacement scope body := by
  rw [Piece.fill, Scope.lookup, Scope.value?, nameOf, replacement]
  cases scope.parameters.find? (Text.trim body) with
  | some parameter => rfl
  | none => cases scope.environment.find? (Text.trim body) <;> rfl

/-- A placeholder is unbound exactly if neither parameters nor the environment have its name. -/
theorem unbound?_placeholder (scope : Scope) (body : Text) : (Piece.placeholder body).unbound? scope =
    if (scope.parameters.find? (Text.trim body)).isNone && (scope.environment.find? (Text.trim body)).isNone then
      some (Text.trim body) else none := by
  rw [Piece.unbound?, Scope.lookup, Scope.value?, nameOf]
  cases scope.parameters.find? (Text.trim body) with
  | some parameter => rfl
  | none => cases scope.environment.find? (Text.trim body) <;> rfl

/-- Warnings come in the order of the placeholders. -/
theorem warnings_cons (scope : Scope) (body : Text) (bodies : List Text) : warnings scope (body :: bodies) =
    (((Piece.placeholder body).unbound? scope).toList.map unboundWarning) ++ warnings scope bodies := by
  rw [unbound?_placeholder, warnings, List.filter_cons]
  split <;> simp [*, warnings]

namespace Reading

/-- Filling the pieces of a reading puts texts in the places of its placeholders. -/
theorem fill_pieces (scope : Scope) (r : Reading) :
    r.pieces.flatMap (Piece.fill scope) = r.replaced (replacement scope) := by
  have hsymbols (text : Text) : (text.map Piece.symbol).flatMap (Piece.fill scope) = text := by
    induction text with
    | nil => rfl
    | cons s rest ih => exact congrArg (List.cons s) ih
  induction r with
  | last text => exact hsymbols text
  | token before body rest ih =>
    rw [pieces, List.flatMap_append, hsymbols, List.flatMap_cons, fill_placeholder, ih, replaced, List.append_assoc]

/-- Up to the first placeholder whose value cannot be written, the pieces of a reading are reported like its
placeholders. -/
theorem warnings_pieces (scope : Scope) (r : Reading) :
    ((r.pieces.takeWhile (Piece.isWritable scope)).filterMap (Piece.unbound? scope)).map unboundWarning =
      warnings scope (r.bodies.takeWhile fun body => scope.isWritable (Text.trim body)) := by
  have hsymbols (text : Text) (rest : List Piece) :
      ((text.map Piece.symbol ++ rest).takeWhile (Piece.isWritable scope)).filterMap (Piece.unbound? scope) =
        (rest.takeWhile (Piece.isWritable scope)).filterMap (Piece.unbound? scope) := by
    induction text with
    | nil => rfl
    | cons s more ih =>
      rw [List.map_cons, List.cons_append, List.takeWhile_cons_of_pos rfl, List.filterMap_cons_none rfl, ih]
  induction r with
  | last text =>
    have hnone := hsymbols text []
    rw [List.append_nil] at hnone
    exact congrArg (List.map unboundWarning) hnone
  | token before body rest ih =>
    rw [pieces, hsymbols, bodies, List.takeWhile_cons, List.takeWhile_cons]
    change _ = warnings scope (if (Piece.placeholder body).isWritable scope then _ else _)
    split
    · rw [warnings_cons, ← ih, List.filterMap_cons]
      cases (Piece.placeholder body).unbound? scope <;> rfl
    · rfl

/-- The pieces of a reading can be written exactly if the values of its placeholders can. -/
theorem all_isWritable_pieces (scope : Scope) (r : Reading) :
    r.pieces.all (Piece.isWritable scope) = r.bodies.all fun body => scope.isWritable (Text.trim body) := by
  have hsymbols (text : Text) : (text.map Piece.symbol).all (Piece.isWritable scope) = true := by
    simp [Piece.isWritable]
  induction r with
  | last text => exact hsymbols text
  | token before body rest ih =>
    rw [pieces, List.all_append, hsymbols, List.all_cons, ih, bodies, List.all_cons]
    rfl

end Reading

variable {ε : Type} {r : Reading}

/-- A template is filled by what a scope puts in the places of the placeholders of its reading, and those that
are not bound are reported, if every value that is asked for can be written. -/
theorem complete_of_reading (fault : WriteFault → ε) (hr : r.IsLeftmost)
    (h : ∀ body ∈ r.bodies, scope.isWritable (Text.trim body) = true) :
    complete fault scope r.source = ⟨warnings scope r.bodies, .ok (r.replaced (replacement scope))⟩ := by
  have hall : r.bodies.all (fun body => scope.isWritable (Text.trim body)) = true := List.all_eq_true.mpr h
  have hpieces : r.pieces.all (Piece.isWritable scope) = true := by rw [r.all_isWritable_pieces, hall]
  have hwarnings := r.warnings_pieces scope
  rw [List.takeWhile_eq_self_iff.mpr (List.all_eq_true.mp hpieces),
    List.takeWhile_eq_self_iff.mpr (List.all_eq_true.mp hall)] at hwarnings
  simp only [complete, fill, hr.pieces_source, hpieces, if_true, hwarnings, r.fill_pieces]

/-- A template is not filled when it asks for a value that cannot be written; what is reported is what is not
bound before. -/
theorem complete_of_unwritable (fault : WriteFault → ε) (hr : r.IsLeftmost) {before after : List Text}
    (hbodies : r.bodies = before ++ body :: after)
    (hbefore : ∀ earlier ∈ before, scope.isWritable (Text.trim earlier) = true)
    (hbody : scope.isWritable (Text.trim body) = false) :
    complete fault scope r.source = ⟨warnings scope before, .error (fault .tooManyDigits)⟩ := by
  have hpieces : r.pieces.all (Piece.isWritable scope) = false := by
    rw [r.all_isWritable_pieces, hbodies]
    simp [hbody]
  have hwarnings := r.warnings_pieces scope
  rw [hbodies, List.takeWhile_append_of_pos hbefore, List.takeWhile_cons_of_neg (by simp [hbody]),
    List.append_nil] at hwarnings
  simp only [complete, hr.pieces_source, hpieces, hwarnings]
  rfl

/-- A template without placeholders stays as it is. -/
theorem complete_of_opensNowhere (fault : WriteFault → ε) (scope : Scope) (h : OpensNowhere text []) :
    complete fault scope text = ⟨[], .ok text⟩ := by
  have hr : (Reading.last text).IsLeftmost := h
  exact complete_of_reading fault hr (by simp [Reading.bodies])

/-- There is one way to take a template apart so that each placeholder begins at the first place behind the one
before it. Filling the template puts what the scope says in the places of these placeholders, without looking at
it again, and warns of each that is not bound, unless one of them asks for a value that cannot be written. A
template without placeholders stays as it is. -/
theorem filled_in_one_pass (fault : WriteFault → ε) (scope : Scope) (template : Text) :
    (∃! r : Reading, r.source = template ∧ r.IsLeftmost) ∧
    (∀ r : Reading, r.source = template → r.IsLeftmost →
      ((∀ body ∈ r.bodies, scope.isWritable (Text.trim body) = true) →
        complete fault scope template = ⟨warnings scope r.bodies, .ok (r.replaced (replacement scope))⟩) ∧
      ∀ before body after, r.bodies = before ++ body :: after →
        (∀ earlier ∈ before, scope.isWritable (Text.trim earlier) = true) →
        scope.isWritable (Text.trim body) = false →
        complete fault scope template = ⟨warnings scope before, .error (fault .tooManyDigits)⟩) ∧
    (OpensNowhere template [] → complete fault scope template = ⟨[], .ok template⟩) := by
  refine ⟨⟨.fromLeft template, Reading.fromLeft_isLeftmost template, fun r hr => Reading.isLeftmost_iff.mp hr⟩,
    ?_, ?_⟩
  · rintro r rfl hr
    constructor
    · exact complete_of_reading fault hr
    · intro before body after hbodies hbefore hbody
      exact complete_of_unwritable fault hr hbodies hbefore hbody
  · exact complete_of_opensNowhere fault scope

/-- A third brace belongs to the name, a single brace ends it, and what is put in is not looked at again. -/
theorem filled_in_one_pass_of_braces :
    let scope : Scope := ⟨[(.text "\x7bA", .text "\x7b\x7bB\x7d\x7d")], [(.text "B", .text "x")]⟩
    let template : Text := "\x7b\x7b\x7bA\x7d\x7d\x7d \x7b\x7ba\x7db\x7d\x7d \x7b\x7b C \x7d\x7d"
    let r : Reading := .token [] "\x7bA" (.token "\x7d \x7b\x7ba\x7db\x7d\x7d " " C " (.last []))
    r.source = template ∧ r.IsLeftmost ∧ (∀ body ∈ r.bodies, scope.isWritable (Text.trim body) = true) ∧
      complete id scope template =
        ⟨[unboundWarning "C"],
          .ok ("\x7b\x7bB\x7d\x7d\x7d \x7b\x7ba\x7db\x7d\x7d \x7b\x7b C \x7d\x7d" : Text)⟩ := by
  intro scope template r
  have hsource : r.source = template := by decide
  have hr : r.IsLeftmost := by decide +kernel
  have hwritable : ∀ body ∈ r.bodies, scope.isWritable (Text.trim body) = true := by decide +kernel
  have hfilled := ((filled_in_one_pass id scope template).2.1 r hsource hr).1 hwritable
  have hwarnings : warnings scope r.bodies = [unboundWarning "C"] := by decide +kernel
  have htext : r.replaced (replacement scope) =
      "\x7b\x7bB\x7d\x7d\x7d \x7b\x7ba\x7db\x7d\x7d \x7b\x7b C \x7d\x7d" := by decide +kernel
  rw [hwarnings, htext] at hfilled
  exact ⟨hsource, hr, hwritable, hfilled⟩

/-- A template is not filled when a name in it is bound to an integer that is too long. -/
theorem not_filled_of_long {n : Int} (h : Number.isWritable n = false) :
    let scope : Scope := ⟨[(.text "A", .int n)], []⟩
    let r : Reading := .token [] "A" (.last [])
    r.IsLeftmost ∧ (∀ body ∈ r.bodies, (scope.value? (Text.trim body)).isSome = true) ∧
      ¬ ∃ text, (complete id scope r.source).outcome = .ok text := by
  intro scope r
  have hr : r.IsLeftmost := by decide +kernel
  have hvalue : scope.value? (Text.trim "A") = some (.int n) := rfl
  have hlong : scope.isWritable (Text.trim "A") = false := by
    rw [Scope.isWritable, hvalue, Option.all_some]
    exact h
  refine ⟨hr, ?_, ?_⟩
  · intro body hbody
    rw [List.mem_singleton.mp hbody, hvalue]
    rfl
  · rintro ⟨text, htext⟩
    have hbodies : r.bodies = [] ++ [("A" : Text)] := rfl
    rw [complete_of_unwritable id hr hbodies (by simp) hlong] at htext
    exact absurd htext (by simp)

/-- Not every template whose names are all bound is filled. -/
theorem filled_in_one_pass_otherwise :
    let scope : Scope := ⟨[(.text "A", .int (Int.pow 10 Number.digitLimit))], []⟩
    let r : Reading := .token [] "A" (.last [])
    r.IsLeftmost ∧ (∀ body ∈ r.bodies, (scope.value? (Text.trim body)).isSome = true) ∧
      ¬ ∃ text, (complete id scope r.source).outcome = .ok text :=
  not_filled_of_long Number.isWritable_limit

end TestPlan.Template
