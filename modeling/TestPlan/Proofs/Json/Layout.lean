import Mathlib.Data.List.Forall2
import TestPlan.Value.Json

/-!
# Layouts of JSON documents

White space outside of string literals says nothing in a JSON document (`JsonPlace.squeeze` drops it). Two
texts are one document when they are equal without it; such texts can be put together as long as neither
stops inside a literal (`SameDocument`). Documents are put together from quoted texts, which close the literal
that they open, and from words and numbers, which have no quotes in them. So all that the indentation of a
value decides is white space outside of literals (`Value.treeJson_same`).
-/

namespace TestPlan

namespace Text

/-- The symbol that is meant by a letter behind a backslash in a JSON string. -/
def jsonEscape? : Symbol → Option Symbol
  | .char '"' => some '"'
  | .char '\\' => some '\\'
  | .char '/' => some '/'
  | .char 'b' => some (.ofCode 0x08)
  | .char 'f' => some (.ofCode 0x0C)
  | .char 'n' => some '\n'
  | .char 'r' => some '\r'
  | .char 't' => some '\t'
  | _ => none

/-- A symbol of a JSON string is a letter behind a backslash, a control character written by its code, or itself. -/
theorem jsonSymbol_cases (s : Symbol) :
    (∃ letter, jsonEscape? letter = some s ∧ jsonSymbol s = [.char '\\', letter]) ∨
      (s.code < 0x20 ∧ jsonSymbol s = "\\u" ++ hex 4 s.code) ∨
        (s ≠ '"' ∧ s ≠ '\\' ∧ ¬ s.code < 0x20) ∧ jsonSymbol s = [s] := by
  have hletter {code : Nat} {letter t : Symbol} (h : (s.code == code) = true) (hmeant : jsonEscape? letter = some t)
      (ht : t = .ofCode code) : jsonEscape? letter = some s := by
    rw [hmeant, ht, ← s.ofCode_code, eq_of_beq h]
  unfold jsonSymbol
  split
  next hself =>
    refine .inl ⟨s, ?_, rfl⟩
    simp only [Bool.or_eq_true, beq_iff_eq] at hself
    rcases hself with rfl | rfl
    · rfl
    · rfl
  next hself =>
    split
    next hs => exact .inl ⟨'n', by rw [eq_of_beq hs]; rfl, rfl⟩
    · split
      next hs => exact .inl ⟨'r', by rw [eq_of_beq hs]; rfl, rfl⟩
      · split
        next hs => exact .inl ⟨'t', by rw [eq_of_beq hs]; rfl, rfl⟩
        · split
          next hs => exact .inl ⟨'b', hletter hs rfl rfl, rfl⟩
          · split
            next hs => exact .inl ⟨'f', hletter hs rfl rfl, rfl⟩
            · split
              next hcode => exact .inr (.inl ⟨hcode, rfl⟩)
              next hcode =>
                simp only [Bool.or_eq_true, beq_iff_eq, not_or] at hself
                exact .inr (.inr ⟨⟨hself.1, hself.2, hcode⟩, rfl⟩)

end Text

/-- Where a symbol of a JSON document stands. -/
inductive JsonPlace
  /-- outside of string literals -/
  | outside
  /-- inside a string literal -/
  | inside
  /-- inside a string literal, behind a backslash -/
  | escaped
  deriving DecidableEq

namespace JsonPlace

/-- Where the symbol after this one stands. -/
def next : JsonPlace → Symbol → JsonPlace
  | outside, s => if s = '"' then inside else outside
  | inside, s => if s = '"' then outside else if s = '\\' then escaped else inside
  | escaped, _ => inside

/-- Whether a symbol is white space. -/
def isWhite (s : Symbol) : Bool := s == ' ' || s == '\n' || s == '\r' || s == '\t'

/-- A text without the white space outside of string literals, if it begins at a place. -/
def squeeze (place : JsonPlace) : Text → Text
  | [] => []
  | s :: rest =>
    if place = outside ∧ isWhite s = true then squeeze (place.next s) rest
    else s :: squeeze (place.next s) rest

/-- Where what follows a text stands. -/
def after (place : JsonPlace) (text : Text) : JsonPlace := text.foldl next place

/-- Behind nothing the place is as before. -/
@[simp] theorem after_nil (place : JsonPlace) : place.after [] = place := rfl

/-- The place behind a text is found symbol by symbol. -/
@[simp] theorem after_cons (place : JsonPlace) (s : Symbol) (rest : Text) :
    place.after (s :: rest) = (place.next s).after rest := rfl

/-- A text goes on where the one before it stops. -/
theorem after_append (place : JsonPlace) (first second : Text) :
    place.after (first ++ second) = (place.after first).after second := List.foldl_append

/-- A text is squeezed from where the one before it stops. -/
theorem squeeze_append (place : JsonPlace) (first second : Text) :
    squeeze place (first ++ second) = squeeze place first ++ squeeze (place.after first) second := by
  induction first generalizing place with
  | nil => rfl
  | cons s rest ih =>
    simp only [List.cons_append, squeeze, ih, after_cons]
    split <;> rfl

/-- A text without quotes opens no literal. -/
theorem after_of_unquoted {text : Text} (h : .char '"' ∉ text) : outside.after text = outside := by
  induction text with
  | nil => rfl
  | cons s rest ih =>
    obtain ⟨hs, hrest⟩ := not_or.mp (mt List.mem_cons.mpr h)
    rw [after_cons, next, if_neg (Ne.symm hs), ih hrest]

/-- A half of a character is no white space, and stays. -/
theorem find?_squeeze (place : JsonPlace) (text : Text) :
    (squeeze place text).find? Symbol.isHalf = text.find? Symbol.isHalf := by
  induction text generalizing place with
  | nil => rfl
  | cons s rest ih =>
    rw [squeeze]
    split
    next hwhite =>
      have hs : s.isHalf = false := by
        obtain ⟨-, hwhite⟩ := hwhite
        cases s with
        | char c => rfl
        | half code => simp [isWhite] at hwhite
      rw [ih, List.find?_cons_of_neg (by simp [hs])]
    next => simp only [List.find?_cons, ih]

/-- Nothing is left of white space, and it opens no literal. -/
theorem squeeze_of_white {text : Text} (h : ∀ s ∈ text, isWhite s = true) :
    squeeze outside text = [] ∧ outside.after text = outside := by
  induction text with
  | nil => exact ⟨rfl, rfl⟩
  | cons s rest ih =>
    have hs := h s List.mem_cons_self
    have hnext : outside.next s = outside := by
      rw [next, if_neg]
      rintro rfl
      exact absurd hs (by decide)
    rw [squeeze, if_pos ⟨rfl, hs⟩, after_cons, hnext]
    exact ih fun t ht => h t (List.mem_cons_of_mem _ ht)

/-- One symbol of a quoted text leaves the literal open. -/
theorem inside_after_jsonSymbol (s : Symbol) : inside.after (Text.jsonSymbol s) = inside := by
  rcases Text.jsonSymbol_cases s with ⟨letter, -, htext⟩ | ⟨hcode, htext⟩ | ⟨⟨hquote, hslash, -⟩, htext⟩
  · rw [htext]
    simp [next]
  · have hcontrol : ∀ code < 0x20, inside.after ("\\u" ++ Text.hex 4 code) = inside := by decide
    rw [htext, hcontrol _ hcode]
  · rw [htext]
    simp [next, hquote, hslash]

/-- A quoted text closes the literal that it opens. -/
theorem after_jsonQuote (text : Text) : outside.after (Text.jsonQuote text) = outside := by
  have hbody : inside.after (text.flatMap Text.jsonSymbol) = inside := by
    induction text with
    | nil => rfl
    | cons s rest ih => rw [List.flatMap_cons, after_append, inside_after_jsonSymbol, ih]
  have hopen : outside.after (Text.ofString "\"") = inside := by decide
  have hclose : inside.after (Text.ofString "\"") = outside := by decide
  rw [Text.jsonQuote, after_append, after_append, hopen, hbody, hclose]

end JsonPlace

/-- The start of a line is white space. -/
theorem JsonLayout.isWhite_of_mem_newline (layout : JsonLayout) (level : Nat) {s : Symbol}
    (h : s ∈ layout.newline level) :
    JsonPlace.isWhite s = true := by
  cases layout with
  | compact => exact absurd h List.not_mem_nil
  | lines indent =>
    rcases List.mem_cons.mp h with rfl | h
    · rfl
    · rw [List.eq_of_mem_replicate h]
      rfl

/-- A list of characters as a text has a quote exactly if the list has. -/
theorem Text.quote_mem_ofChars {chars : List Char} : .char '"' ∈ ofChars chars ↔ '"' ∈ chars := by
  simp [ofChars]

namespace Number

/-- Digits are no quotes. -/
theorem quote_not_mem_digits (n : Nat) : '"' ∉ Nat.toDigits 10 n := fun h =>
  absurd (Nat.isDigit_of_mem_toDigits (by decide) (by decide) h) (by decide)

/-- An integer in decimal has no quotes. -/
theorem quote_not_mem_text (n : Int) : .char '"' ∉ Text.ofString (text n) := by
  rw [Text.ofString, Text.quote_mem_ofChars, text, String.toList_ofList]
  split <;> simp [quote_not_mem_digits]

end Number

namespace Binary64

open Number (quote_not_mem_digits)

/-- There are no quotes among significant digits. -/
theorem quote_not_mem_significant (d : Decimal) : '"' ∉ (significant d).1 := by
  intro h
  have hkept := (List.dropWhile_suffix _).subset (List.mem_reverse.mp h)
  exact quote_not_mem_digits _ (List.mem_reverse.mp hkept)

/-- There are no quotes in an exponent. -/
theorem quote_not_mem_exponentText (e : Int) : '"' ∉ exponentText e := by
  unfold exponentText
  have hdigits := quote_not_mem_digits e.natAbs
  simp only [List.mem_cons, not_or]
  refine ⟨by decide, by split <;> decide, ?_⟩
  split <;> simp [hdigits]

/-- There are no quotes in a number that is not negative. -/
theorem quote_not_mem_positiveText (format : Notation) (mantissa : Nat) (exponent : Int) :
    '"' ∉ positiveText format mantissa exponent := by
  have hdigits := quote_not_mem_significant (shortest mantissa exponent)
  unfold positiveText
  generalize significant (shortest mantissa exponent) = parts at hdigits
  obtain ⟨digits, place⟩ := parts
  have hexponent := quote_not_mem_exponentText place
  have hfront (n : Nat) : '"' ∉ digits.take n := fun h => hdigits (List.mem_of_mem_take h)
  have hback (n : Nat) : '"' ∉ digits.drop n := fun h => hdigits (List.mem_of_mem_drop h)
  dsimp only
  split
  · split
    · simp [hdigits]
    · split <;> simp [hfront, hback]
  · split
    · simp
    · simp_all
    · simp_all

/-- A fractional number has no quotes if the names of the special numbers have none. -/
theorem quote_not_mem_write {format : Notation} (hnan : '"' ∉ format.nan.toList)
    (hinfinite : '"' ∉ format.infinite.toList) (x : Binary64) : .char '"' ∉ Text.ofString (x.write format) := by
  rw [Text.ofString, Text.quote_mem_ofChars]
  cases x with
  | nan => exact hnan
  | infinite negative => cases negative <;> simp [write, hinfinite]
  | finite negative mantissa exponent =>
    have hpositive := quote_not_mem_positiveText format mantissa exponent
    simp only [write, String.toList_append, List.mem_append, not_or]
    constructor
    · cases negative <;> simp
    · split <;> simp [hpositive]

end Binary64

/-- Two texts are one JSON document: none of them stops inside a literal, and without white space outside of
literals they are equal. -/
structure SameDocument (first second : Text) : Prop where
  first_closed : JsonPlace.outside.after first = .outside
  second_closed : JsonPlace.outside.after second = .outside
  squeezed : JsonPlace.outside.squeeze first = JsonPlace.outside.squeeze second

namespace SameDocument

/-- A text that closes its literals is one document with itself. -/
theorem refl {text : Text} (h : JsonPlace.outside.after text = .outside) : SameDocument text text := ⟨h, h, rfl⟩

/-- A text without quotes is one document with itself. -/
theorem of_unquoted {text : Text} (h : .char '"' ∉ text) : SameDocument text text :=
  .refl (JsonPlace.after_of_unquoted h)

/-- All white space is one document. -/
theorem of_white {first second : Text} (hfirst : ∀ s ∈ first, JsonPlace.isWhite s = true)
    (hsecond : ∀ s ∈ second, JsonPlace.isWhite s = true) : SameDocument first second := by
  obtain ⟨hsqueezed, hclosed⟩ := JsonPlace.squeeze_of_white hfirst
  obtain ⟨hsqueezed', hclosed'⟩ := JsonPlace.squeeze_of_white hsecond
  exact ⟨hclosed, hclosed', hsqueezed.trans hsqueezed'.symm⟩

/-- Documents may be written one after the other. -/
theorem append {a b c d : Text} (h : SameDocument a b) (h' : SameDocument c d) :
    SameDocument (a ++ c) (b ++ d) where
  first_closed := by rw [JsonPlace.after_append, h.first_closed, h'.first_closed]
  second_closed := by rw [JsonPlace.after_append, h.second_closed, h'.second_closed]
  squeezed := by
    rw [JsonPlace.squeeze_append, JsonPlace.squeeze_append, h.first_closed, h.second_closed, h.squeezed,
      h'.squeezed]

/-- Documents may be written one after the other with documents between them. -/
theorem joinWith {between between' : Text} (hbetween : SameDocument between between') {parts parts' : List Text}
    (h : List.Forall₂ SameDocument parts parts') :
    SameDocument (Text.joinWith between parts) (Text.joinWith between' parts') := by
  induction h with
  | nil => exact .of_unquoted (by simp [Text.joinWith, List.intercalate])
  | @cons part part' rest rest' hpart hrest ih =>
    cases hrest with
    | nil => simpa [Text.joinWith, List.intercalate] using hpart
    | cons hnext hmore =>
      simpa [Text.joinWith, List.intercalate] using hpart.append (hbetween.append ih)

/-- Containers with the same parts are the same, however their lines are indented. -/
theorem bracket (i j level level' : Nat) {opening closing : String} (hopening : '"' ∉ opening.toList)
    (hclosing : '"' ∉ closing.toList) {parts parts' : List Text} (h : List.Forall₂ SameDocument parts parts') :
    SameDocument ((JsonLayout.lines i).bracket level opening closing parts)
      ((JsonLayout.lines j).bracket level' opening closing parts') := by
  have hopen : SameDocument opening opening := .of_unquoted (mt Text.quote_mem_ofChars.mp hopening)
  have hclose : SameDocument closing closing := .of_unquoted (mt Text.quote_mem_ofChars.mp hclosing)
  have hcomma : SameDocument "," "," := .of_unquoted (by decide)
  have hline (m n : Nat) : SameDocument ((JsonLayout.lines i).newline m) ((JsonLayout.lines j).newline n) :=
    .of_white (fun _ => JsonLayout.isWhite_of_mem_newline _ m) (fun _ => JsonLayout.isWhite_of_mem_newline _ n)
  unfold JsonLayout.bracket
  cases h with
  | nil => exact hopen.append hclose
  | cons hpart hrest =>
    have hparts := joinWith (hcomma.append (hline (level + 1) (level' + 1))) (.cons hpart hrest)
    exact (((hopen.append (hline _ _)).append hparts).append (hline _ _)).append hclose

end SameDocument

/-- Two computations come to results that are related, or to the same fault. -/
inductive SameResult {ε α β : Type} (R : α → β → Prop) : Except ε α → Except ε β → Prop
  | ok {a b} (h : R a b) : SameResult R (.ok a) (.ok b)
  | error (e) : SameResult R (.error e) (.error e)

namespace SameResult

variable {ε ε' α β γ δ : Type} {R : α → β → Prop} {S : γ → δ → Prop} {first : Except ε α} {second : Except ε β}

/-- Computations that go on alike from related results come to related results, or to the same fault. -/
theorem bind {next : α → Except ε γ} {next' : β → Except ε δ} (h : SameResult R first second)
    (hnext : ∀ a b, R a b → SameResult S (next a) (next' b)) :
    SameResult S (first >>= next) (second >>= next') := by
  cases h with
  | ok h => exact hnext _ _ h
  | error e => exact .error e

/-- The same fault stays the same under another name. -/
theorem mapError (h : SameResult R first second) (f : ε → ε') :
    SameResult R (first.mapError f) (second.mapError f) := by
  cases h with
  | ok h => exact .ok h
  | error e => exact .error (f e)

/-- There are two results that are related, or one fault. -/
theorem elim (h : SameResult R first second) :
    (∃ a b, first = .ok a ∧ second = .ok b ∧ R a b) ∨ ∃ e, first = .error e ∧ second = .error e := by
  cases h with
  | ok h => exact .inl ⟨_, _, rfl, rfl, h⟩
  | error e => exact .inr ⟨e, rfl, rfl⟩

end SameResult

/-- A scalar is one document. -/
theorem Scalar.writeJson_same (s : Scalar) : SameResult SameDocument s.writeJson s.writeJson := by
  unfold writeJson
  split
  · refine .ok ?_
    cases s with
    | null => exact .of_unquoted (by decide)
    | bool b => cases b <;> exact .of_unquoted (by decide)
    | int n => exact .of_unquoted (Number.quote_not_mem_text n)
    | float x => exact .of_unquoted (Binary64.quote_not_mem_write (by decide) (by decide) x)
    | text _ | date _ | datetime _ | bytes _ => exact .refl (JsonPlace.after_jsonQuote _)
  · exact .error _

namespace Value

mutual

/-- A tree in JSON is one document for all indentations. -/
theorem treeJson_same (i j level level' : Nat) (v : Value) :
    SameResult SameDocument (v.treeJson (.lines i) level) (v.treeJson (.lines j) level') := by
  match v with
  | .scalar s => exact s.writeJson_same
  | .list items =>
    exact (itemsJson_same i j (level + 1) (level' + 1) items).bind fun _ _ h =>
      .ok (.bracket i j level level' (by decide) (by decide) h)
  | .map entries =>
    exact (entriesJson_same i j (level + 1) (level' + 1) entries).bind fun _ _ h =>
      .ok (.bracket i j level level' (by decide) (by decide) h)
  | .pair first second =>
    exact (treeJson_same i j (level + 1) (level' + 1) first).bind fun _ _ hfirst =>
      (treeJson_same i j (level + 1) (level' + 1) second).bind fun _ _ hsecond =>
        .ok (.bracket i j level level' (by decide) (by decide) (.cons hfirst (.cons hsecond .nil)))
  | .set members =>
    unfold treeJson
    split
    · exact .ok (.refl (JsonPlace.after_jsonQuote _))
    · exact .error _
  | .knot .. => exact .error _

/-- The items of a list in JSON are the same documents for all indentations. -/
theorem itemsJson_same (i j level level' : Nat) (vs : List Value) :
    SameResult (List.Forall₂ SameDocument) (itemsJson (.lines i) level vs) (itemsJson (.lines j) level' vs) := by
  match vs with
  | [] => exact .ok .nil
  | v :: rest =>
    exact (treeJson_same i j level level' v).bind fun _ _ hv =>
      (itemsJson_same i j level level' rest).bind fun _ _ hrest => .ok (.cons hv hrest)

/-- The entries of a mapping in JSON are the same documents for all indentations. -/
theorem entriesJson_same (i j level level' : Nat) (es : List (Scalar × Value)) :
    SameResult (List.Forall₂ SameDocument) (entriesJson (.lines i) level es)
      (entriesJson (.lines j) level' es) := by
  match es with
  | [] => exact .ok .nil
  | (key, v) :: rest =>
    have hkey : SameResult Eq (key.jsonKey (.lines i)) (key.jsonKey (.lines j)) := by
      have heq : key.jsonKey (.lines i) = key.jsonKey (.lines j) := by cases key <;> rfl
      rw [heq]
      cases key.jsonKey (.lines j) with
      | ok name => exact .ok rfl
      | error e => exact .error e
    have hcolon : SameDocument ": " ": " := .of_unquoted (by decide)
    refine hkey.bind fun name _ hname => ?_
    subst hname
    refine (treeJson_same i j level level' v).bind fun _ _ hv =>
      (entriesJson_same i j level level' rest).bind fun _ _ hrest => .ok (.cons ?_ hrest)
    exact ((SameDocument.refl (JsonPlace.after_jsonQuote name)).append hcolon).append hv

end

/-- A value in JSON is one document for all indentations. -/
theorem json_same (i j : Nat) (v : Value) : SameResult SameDocument (v.json (.lines i)) (v.json (.lines j)) :=
  treeJson_same i j 0 0 v.spread

end Value
end TestPlan
