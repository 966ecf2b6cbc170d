import TestPlan.Proofs.Json.Token

/-!
# JSON documents

What a JSON text says: null, truth values, numbers as they are written, strings, and containers whose items and
members keep their order; an object may have several members with one name (`Json`). A text is read by finding its
tokens and going through them with the containers that are open on a stack (`JsonProgress.next`). A document that is
written in any layout is read back (`Json.ofText?_text`); on one line it has no white space outside of strings
(`Json.isCompact_text`).
-/

namespace TestPlan

/-- A JSON document. -/
inductive Json
  | null
  | bool (b : Bool)
  | number (n : JsonNumber)
  | string (s : Text)
  | array (items : List Json)
  | object (members : List (Text × Json))

namespace Json

mutual

/-- A document as a text in a layout. -/
def text (layout : JsonLayout) (level : Nat) : Json → Text
  | .null => "null"
  | .bool b => if b then "true" else "false"
  | .number n => n.literal
  | .string s => Text.jsonQuote s
  | .array items => layout.bracket level "[" "]" (itemTexts layout (level + 1) items)
  | .object members => layout.bracket level "\x7b" "\x7d" (memberTexts layout (level + 1) members)
termination_by structural v => v

/-- The items of an array as texts. -/
def itemTexts (layout : JsonLayout) (level : Nat) : List Json → List Text
  | [] => []
  | v :: rest => v.text layout level :: itemTexts layout level rest
termination_by structural vs => vs

/-- The members of an object as texts. -/
def memberTexts (layout : JsonLayout) (level : Nat) : List (Text × Json) → List Text
  | [] => []
  | (name, v) :: rest =>
    (Text.jsonQuote name ++ layout.colon ++ v.text layout level) :: memberTexts layout level rest
termination_by structural ms => ms

end

mutual

/-- The tokens of a document. -/
def tokens : Json → List JsonToken
  | .null => [.word "null"]
  | .bool b => [.word (if b then "true" else "false")]
  | .number n => [.word n.literal]
  | .string s => [.string s]
  | .array items => .openArray :: [.comma].intercalate (itemTokens items) ++ [.closeArray]
  | .object members => .openObject :: [.comma].intercalate (memberTokens members) ++ [.closeObject]
termination_by structural v => v

/-- The tokens of the items of an array. -/
def itemTokens : List Json → List (List JsonToken)
  | [] => []
  | v :: rest => v.tokens :: itemTokens rest
termination_by structural vs => vs

/-- The tokens of the members of an object. -/
def memberTokens : List (Text × Json) → List (List JsonToken)
  | [] => []
  | (name, v) :: rest => (.string name :: .colon :: v.tokens) :: memberTokens rest
termination_by structural ms => ms

end

/-- The value that a word names: a number, or one of the three other words. -/
def ofWord? (text : Text) : Option Json :=
  if text = "null" then some null
  else if text = "true" then some (bool true)
  else if text = "false" then some (bool false)
  else if h : JsonNumber.isNumber text then some (number ⟨text, h⟩)
  else none

end Json

/-- A container that is still open, with what has been read of it. -/
inductive JsonFrame
  | array (items : List Json)
  /-- an object whose next value belongs to a name -/
  | object (members : List (Text × Json)) (name : Text)

/-- What may come next in a document, with the containers that are open, the innermost first. -/
inductive JsonProgress
  | value (outside : List JsonFrame)
  /-- the first item of an array, or its end -/
  | firstItem (outside : List JsonFrame)
  /-- the first name of an object, or its end -/
  | firstName (outside : List JsonFrame)
  /-- another name of an object -/
  | name (members : List (Text × Json)) (outside : List JsonFrame)
  /-- the colon behind a name of an object -/
  | colon (members : List (Text × Json)) (name : Text) (outside : List JsonFrame)
  /-- what follows a value -/
  | done (v : Json) (outside : List JsonFrame)

namespace JsonProgress

/-- A value begins with a token. -/
def start (outside : List JsonFrame) : JsonToken → Option JsonProgress
  | .openArray => some (firstItem outside)
  | .openObject => some (firstName outside)
  | .string s => some (done (.string s) outside)
  | .word text => (Json.ofWord? text).map (done · outside)
  | _ => none

/-- One token further. -/
def next : JsonProgress → JsonToken → Option JsonProgress
  | value outside, token => start outside token
  | firstItem outside, .closeArray => some (done (.array []) outside)
  | firstItem outside, token => start (.array [] :: outside) token
  | firstName outside, .closeObject => some (done (.object []) outside)
  | firstName outside, .string s => some (colon [] s outside)
  | name members outside, .string s => some (colon members s outside)
  | colon members s outside, .colon => some (value (.object members s :: outside))
  | done v (.array items :: outside), .comma => some (value (.array (items ++ [v]) :: outside))
  | done v (.array items :: outside), .closeArray => some (done (.array (items ++ [v])) outside)
  | done v (.object members s :: outside), .comma => some (name (members ++ [(s, v)]) outside)
  | done v (.object members s :: outside), .closeObject => some (done (.object (members ++ [(s, v)])) outside)
  | _, _ => none

/-- Many tokens further. -/
def run (progress : JsonProgress) (tokens : List JsonToken) : Option JsonProgress := tokens.foldlM next progress

/-- A run begins with its first token. -/
theorem run_cons (progress : JsonProgress) (token : JsonToken) (rest : List JsonToken) :
    progress.run (token :: rest) = (progress.next token).bind (run · rest) := rfl

end JsonProgress

namespace Json

/-- The document with these tokens. -/
def ofTokens? (tokens : List JsonToken) : Option Json :=
  match (JsonProgress.value []).run tokens with
  | some (.done v []) => some v
  | _ => none

/-- The document that a text says. -/
def ofText? (text : Text) : Option Json := (JsonToken.read? text).bind ofTokens?

/-! ## Reading what has been written -/

open JsonToken (Reads Separates)

/-- The names of values without parts that are no numbers. -/
def names : List Text := ["null", "true", "false"]

/-- A name is one token. -/
theorem reads_name {name : Text} (h : name ∈ names) : Reads name [.word name] := by
  have hplain : ∀ name ∈ names, name ≠ [] ∧ ∀ s ∈ name, JsonNumber.isPlain s = true := by decide
  exact .word (hplain name h).1 (hplain name h).2

mutual

/-- A document as a text has its tokens. -/
theorem reads_text (layout : JsonLayout) (level : Nat) (v : Json) : Reads (v.text layout level) v.tokens := by
  match v with
  | .null => exact reads_name (.head _)
  | .bool true => exact reads_name (.tail _ (.head _))
  | .bool false => exact reads_name (.tail _ (.tail _ (.head _)))
  | .number n => exact .word n.literal_ne_nil n.isPlain_of_mem_literal
  | .string s => exact .quoted s
  | .array items =>
    have hopening : Separates "[" [.openArray] := .mark rfl
    have hclosing : Separates "]" [.closeArray] := .mark rfl
    exact .bracket layout level hopening hclosing (reads_itemTexts layout (level + 1) items)
  | .object members =>
    have hopening : Separates "\x7b" [.openObject] := .mark rfl
    have hclosing : Separates "\x7d" [.closeObject] := .mark rfl
    exact .bracket layout level hopening hclosing (reads_memberTexts layout (level + 1) members)

/-- The items of an array as texts have their tokens. -/
theorem reads_itemTexts (layout : JsonLayout) (level : Nat) (vs : List Json) :
    List.Forall₂ Reads (itemTexts layout level vs) (itemTokens vs) := by
  match vs with
  | [] => exact .nil
  | v :: rest => exact .cons (reads_text layout level v) (reads_itemTexts layout level rest)

/-- The members of an object as texts have their tokens. -/
theorem reads_memberTexts (layout : JsonLayout) (level : Nat) (ms : List (Text × Json)) :
    List.Forall₂ Reads (memberTexts layout level ms) (memberTokens ms) := by
  match ms with
  | [] => exact .nil
  | (name, v) :: rest =>
    have hcolon : Separates layout.colon [.colon] := by
      cases layout with
      | compact => exact .mark rfl
      | lines indent =>
        have hmark : Separates ":" [.colon] := .mark rfl
        have htext : Text.ofString ": " = Text.ofString ":" ++ " " := by decide
        rw [JsonLayout.colon, htext]
        exact hmark.append_white (by decide)
    exact .cons ((Reads.quoted name).separated hcolon (reads_text layout level v))
      (reads_memberTexts layout level rest)

end

/-- A number is no other word. -/
theorem ofWord?_literal (n : JsonNumber) : ofWord? n.literal = some (number n) := by
  have hother : ∀ name ∈ names, n.literal ≠ name := by
    intro name hname heq
    have hnumber : ∀ name ∈ names, JsonNumber.isNumber name = false := by decide
    exact absurd (heq ▸ n.valid) (by rw [hnumber name hname]; decide)
  simp only [names, List.forall_mem_cons] at hother
  obtain ⟨hnull, htrue, hfalse, -⟩ := hother
  rw [ofWord?, if_neg hnull, if_neg htrue, if_neg hfalse, dif_pos n.valid]

/-- Texts with a text between them begin with the first one. -/
theorem exists_intercalate_cons {α : Type} (between first : List α) (rest : List (List α)) :
    ∃ more, between.intercalate (first :: rest) = first ++ more := by
  cases rest with
  | nil => exact ⟨[], by rw [List.intercalate_singleton, List.append_nil]⟩
  | cons next more => exact ⟨_, by rw [List.intercalate_cons_cons, List.append_assoc]⟩

/-- The first item of an array is read like any other value. -/
theorem run_firstItem (outside : List JsonFrame) (v : Json) (rest : List JsonToken) :
    (JsonProgress.firstItem outside).run (v.tokens ++ rest) =
      (JsonProgress.value (.array [] :: outside)).run (v.tokens ++ rest) := by
  cases v <;> rfl

mutual

/-- Going through the tokens of a document reads it. -/
theorem run_tokens (outside : List JsonFrame) (v : Json) (rest : List JsonToken) :
    (JsonProgress.value outside).run (v.tokens ++ rest) = (JsonProgress.done v outside).run rest := by
  match v with
  | .null => rfl
  | .bool true => rfl
  | .bool false => rfl
  | .number n =>
    rw [tokens, List.singleton_append, JsonProgress.run_cons, JsonProgress.next, JsonProgress.start,
      ofWord?_literal]
    rfl
  | .string s => rfl
  | .array [] => rfl
  | .array (first :: items) =>
    have hitems := run_itemTokens outside [] first items rest
    obtain ⟨more, hmore⟩ := exists_intercalate_cons [JsonToken.comma] first.tokens (itemTokens items)
    rw [itemTokens, hmore, List.append_assoc] at hitems
    have htokens : (array (first :: items)).tokens ++ rest =
        .openArray :: (first.tokens ++ (more ++ .closeArray :: rest)) := by
      simp [tokens, itemTokens, hmore]
    rw [htokens]
    exact (run_firstItem outside first _).trans hitems
  | .object [] => rfl
  | .object ((name, v) :: members) =>
    have hmembers := run_memberTokens outside [] name v members rest
    obtain ⟨more, hmore⟩ := exists_intercalate_cons [JsonToken.comma] (.string name :: .colon :: v.tokens)
      (memberTokens members)
    rw [memberTokens, hmore, List.append_assoc] at hmembers
    have htokens : (object ((name, v) :: members)).tokens ++ rest =
        .openObject :: (.string name :: .colon :: v.tokens ++ (more ++ .closeObject :: rest)) := by
      simp [tokens, memberTokens, hmore]
    rw [htokens]
    exact hmembers
termination_by sizeOf v

/-- Going through the tokens of items and the end of their array reads the array. -/
theorem run_itemTokens (outside : List JsonFrame) (before : List Json) (v : Json) (vs : List Json)
    (rest : List JsonToken) :
    (JsonProgress.value (.array before :: outside)).run
      ([.comma].intercalate (itemTokens (v :: vs)) ++ .closeArray :: rest) =
        (JsonProgress.done (.array (before ++ v :: vs)) outside).run rest := by
  match vs with
  | [] =>
    rw [itemTokens, itemTokens, List.intercalate_singleton, run_tokens]
    rfl
  | next :: more =>
    have hmore := run_itemTokens outside (before ++ [v]) next more rest
    rw [itemTokens, itemTokens, List.intercalate_cons_cons, List.append_assoc, List.append_assoc, run_tokens]
    rw [List.append_assoc] at hmore
    exact hmore
termination_by sizeOf (v :: vs)

/-- Going through the tokens of members and the end of their object reads the object. -/
theorem run_memberTokens (outside : List JsonFrame) (before : List (Text × Json)) (name : Text) (v : Json)
    (ms : List (Text × Json)) (rest : List JsonToken) :
    (JsonProgress.name before outside).run
      ([.comma].intercalate (memberTokens ((name, v) :: ms)) ++ .closeObject :: rest) =
        (JsonProgress.done (.object (before ++ (name, v) :: ms)) outside).run rest := by
  have hfirst (rest : List JsonToken) : (JsonProgress.name before outside).run
      (.string name :: .colon :: v.tokens ++ rest) =
        (JsonProgress.done v (.object before name :: outside)).run rest :=
    run_tokens (.object before name :: outside) v rest
  match ms with
  | [] =>
    rw [memberTokens, memberTokens, List.intercalate_singleton, hfirst]
    rfl
  | (next, w) :: more =>
    have hmore := run_memberTokens outside (before ++ [(name, v)]) next w more rest
    rw [memberTokens, memberTokens, List.intercalate_cons_cons, List.append_assoc, List.append_assoc, hfirst]
    rw [List.append_assoc] at hmore
    exact hmore
termination_by sizeOf ((name, v) :: ms)

end

/-- A document that is written in any layout is read back. -/
theorem ofText?_text (layout : JsonLayout) (level : Nat) (v : Json) : ofText? (v.text layout level) = some v := by
  have hrun := run_tokens [] v []
  rw [List.append_nil] at hrun
  rw [ofText?, (reads_text layout level v).read?, Option.bind_some, ofTokens?, hrun]
  rfl

end Json

/-! ## White space -/

namespace JsonPlace

/-- Nothing is dropped from one symbol of a string. -/
theorem squeeze_jsonSymbol (s : Symbol) : inside.squeeze (Text.jsonSymbol s) = Text.jsonSymbol s := by
  rcases Text.jsonSymbol_cases s with ⟨letter, -, htext⟩ | ⟨hcode, htext⟩ | ⟨-, htext⟩
  · rw [htext]
    simp [squeeze, next]
  · have hcontrol : ∀ code < 0x20, inside.squeeze ("\\u" ++ Text.hex 4 code) = "\\u" ++ Text.hex 4 code := by decide
    rw [htext, hcontrol _ hcode]
  · rw [htext]
    rfl

end JsonPlace

/-- A text has no white space outside of strings, and closes the strings that it opens. -/
structure IsCompact (text : Text) : Prop where
  closed : JsonPlace.outside.after text = .outside
  squeezed : JsonPlace.outside.squeeze text = text

namespace IsCompact

/-- Compact texts may be written one after the other. -/
theorem append {first second : Text} (h : IsCompact first) (hsecond : IsCompact second) :
    IsCompact (first ++ second) where
  closed := by rw [JsonPlace.after_append, h.closed, hsecond.closed]
  squeezed := by rw [JsonPlace.squeeze_append, h.closed, h.squeezed, hsecond.squeezed]

/-- Symbols of numbers and names are no white space and no quotes. -/
theorem plain {text : Text} (h : ∀ s ∈ text, JsonNumber.isPlain s = true) : IsCompact text := by
  induction text with
  | nil => exact ⟨rfl, rfl⟩
  | cons s rest ih =>
    obtain ⟨hs, hrest⟩ := List.forall_mem_cons.mp h
    have hwhite : ¬ JsonPlace.isWhite s = true := fun hwhite => by
      rw [JsonToken.not_isPlain_of_isWhite hwhite] at hs
      exact absurd hs (by decide)
    have hnext : JsonPlace.outside.next s = .outside := by
      rw [JsonPlace.next, if_neg]
      rintro rfl
      exact absurd hs (by decide)
    obtain ⟨hclosed, hsqueezed⟩ := ih hrest
    refine ⟨by rw [JsonPlace.after_cons, hnext, hclosed], ?_⟩
    rw [JsonPlace.squeeze, if_neg (mt And.right hwhite), hnext, hsqueezed]

/-- A quoted text is compact: its white space is inside a literal. -/
theorem quoted (s : Text) : IsCompact (Text.jsonQuote s) where
  closed := JsonPlace.after_jsonQuote s
  squeezed := by
    have hbody : JsonPlace.inside.squeeze (s.flatMap Text.jsonSymbol) = s.flatMap Text.jsonSymbol ∧
        JsonPlace.inside.after (s.flatMap Text.jsonSymbol) = .inside := by
      induction s with
      | nil => exact ⟨rfl, rfl⟩
      | cons first rest ih =>
        rw [List.flatMap_cons, JsonPlace.squeeze_append, JsonPlace.after_append, JsonPlace.inside_after_jsonSymbol,
          JsonPlace.squeeze_jsonSymbol, ih.1, ih.2]
        exact ⟨rfl, rfl⟩
    have hopen : JsonPlace.outside.squeeze "\"" = "\"" ∧ JsonPlace.outside.after "\"" = .inside := by decide
    have hclose : JsonPlace.inside.squeeze "\"" = "\"" := by decide
    rw [Text.jsonQuote, JsonPlace.squeeze_append, JsonPlace.squeeze_append, JsonPlace.after_append, hopen.1,
      hopen.2, hbody.1, hbody.2, hclose]

/-- Compact texts with compact texts between them are compact. -/
theorem joinWith {between : Text} (hbetween : IsCompact between) {parts : List Text}
    (h : ∀ part ∈ parts, IsCompact part) : IsCompact (Text.joinWith between parts) := by
  induction parts with
  | nil => exact ⟨rfl, rfl⟩
  | cons part rest ih =>
    obtain ⟨hpart, hrest⟩ := List.forall_mem_cons.mp h
    cases rest with
    | nil => simpa [Text.joinWith, List.intercalate] using hpart
    | cons next more => simpa [Text.joinWith, List.intercalate] using hpart.append (hbetween.append (ih hrest))

/-- Compact parts in brackets are compact, since a compact layout has no lines. -/
theorem bracket (level : Nat) {opening closing : String} (hopening : IsCompact opening)
    (hclosing : IsCompact closing) {parts : List Text} (h : ∀ part ∈ parts, IsCompact part) :
    IsCompact (JsonLayout.compact.bracket level opening closing parts) := by
  have hcomma : IsCompact "," := ⟨by decide, by decide⟩
  have hline (n : Nat) : IsCompact (JsonLayout.compact.newline n) := ⟨rfl, rfl⟩
  unfold JsonLayout.bracket
  split
  · exact hopening.append hclosing
  · have hparts := (hopening.append (hline (level + 1))).append (joinWith (hcomma.append (hline (level + 1))) h)
    exact (hparts.append (hline level)).append hclosing

end IsCompact

namespace Json

/-- The words for nothing and for the truth values are compact. -/
theorem isCompact_name {name : Text} (h : name ∈ names) : IsCompact name := by
  have hplain : ∀ name ∈ names, ∀ s ∈ name, JsonNumber.isPlain s = true := by decide
  exact .plain (hplain name h)

mutual

/-- A document on one line has no white space outside of strings. -/
theorem isCompact_text (level : Nat) (v : Json) : IsCompact (v.text .compact level) := by
  match v with
  | .null => exact isCompact_name (.head _)
  | .bool true => exact isCompact_name (.tail _ (.head _))
  | .bool false => exact isCompact_name (.tail _ (.tail _ (.head _)))
  | .number n => exact .plain n.isPlain_of_mem_literal
  | .string s => exact .quoted s
  | .array items =>
    have hbrackets : IsCompact "[" ∧ IsCompact "]" := ⟨⟨by decide, by decide⟩, ⟨by decide, by decide⟩⟩
    exact .bracket level hbrackets.1 hbrackets.2 (isCompact_itemTexts (level + 1) items)
  | .object members =>
    have hbrackets : IsCompact "\x7b" ∧ IsCompact "\x7d" := ⟨⟨by decide, by decide⟩, ⟨by decide, by decide⟩⟩
    exact .bracket level hbrackets.1 hbrackets.2 (isCompact_memberTexts (level + 1) members)

/-- The items of an array on one line have no white space outside of strings. -/
theorem isCompact_itemTexts (level : Nat) (vs : List Json) :
    ∀ part ∈ itemTexts .compact level vs, IsCompact part := by
  match vs with
  | [] => exact fun part hpart => absurd hpart List.not_mem_nil
  | v :: rest => exact List.forall_mem_cons.mpr ⟨isCompact_text level v, isCompact_itemTexts level rest⟩

/-- The members of an object on one line have no white space outside of strings. -/
theorem isCompact_memberTexts (level : Nat) (ms : List (Text × Json)) :
    ∀ part ∈ memberTexts .compact level ms, IsCompact part := by
  match ms with
  | [] => exact fun part hpart => absurd hpart List.not_mem_nil
  | (name, v) :: rest =>
    have hcolon : IsCompact JsonLayout.compact.colon := ⟨by decide, by decide⟩
    exact List.forall_mem_cons.mpr
      ⟨((IsCompact.quoted name).append hcolon).append (isCompact_text level v), isCompact_memberTexts level rest⟩

end

/-! ## Values -/

mutual

/-- The value that a document stands for. Of several members with one name, the first has its place and the last
its value. -/
def value : Json → Value
  | .null => .null
  | .bool b => .scalar (.bool b)
  | .number n => .scalar n.scalar
  | .string s => .text s
  | .array items => .list (itemValues items)
  | .object members => .map (Entries.ofList (memberValues members))
termination_by structural v => v

/-- The values of the items of an array. -/
def itemValues : List Json → List Value
  | [] => []
  | v :: rest => v.value :: itemValues rest
termination_by structural vs => vs

/-- The members of an object as entries. -/
def memberValues : List (Text × Json) → Entries Value
  | [] => []
  | (name, v) :: rest => (.text name, v.value) :: memberValues rest
termination_by structural ms => ms

end

end Json
end TestPlan
