import TestPlan.Proofs.Json.Number

/-!
# Tokens of JSON documents

A JSON text is a sequence of marks, strings, numbers and names, with white space between them (`JsonToken.read?`). A
string ends at the first quote that has no backslash before it, and what is between the quotes is read back as the
text that was quoted (`JsonToken.readString?_quoted`). A number or a name goes as far as its symbols do, so its
tokens are known only where another symbol follows (`JsonToken.Reads`). Marks and white space do not depend on what
is around them (`JsonToken.Separates`). So the tokens of a container are those of its parts with marks between them,
in every layout (`JsonToken.Reads.bracket`).
-/

namespace TestPlan

/-- A part of a JSON text. -/
inductive JsonToken
  | openArray
  | closeArray
  | openObject
  | closeObject
  | comma
  | colon
  | string (s : Text)
  /-- a number, or the name of a value -/
  | word (text : Text)

namespace JsonToken

/-- The code that hexadecimal digits write. -/
def readCode? (digits : Text) : Option Nat :=
  if digits.all (Number.isDigitIn 16) then some (Number.ofDigits 16 digits) else none

/-- What is found in a string with one more symbol in front. -/
def withSymbol (marked : Bool) (s : Symbol) (found : List (Bool × Symbol) × Text) : List (Bool × Symbol) × Text :=
  ((marked, s) :: found.1, found.2)

/-- The symbols of a string up to the quote at its end, and what follows the quote. Symbols that are written by
their codes are marked. -/
def readSymbols? : Text → Option (List (Bool × Symbol) × Text)
  | [] => none
  | .char '"' :: rest => some ([], rest)
  | .char '\\' :: .char 'u' :: a :: b :: c :: d :: rest =>
    (readCode? [a, b, c, d]).bind fun code => (readSymbols? rest).map (withSymbol true (.ofCode code))
  | .char '\\' :: s :: rest => (Text.jsonEscape? s).bind fun meant =>
    (readSymbols? rest).map (withSymbol false meant)
  | s :: rest => if s.code < 0x20 then none else (readSymbols? rest).map (withSymbol false s)

/-- The symbols of a string as a text. The two halves of a character are that character where both are written by
their codes. -/
def joinHalves : List (Bool × Symbol) → Text
  | [] => []
  | (true, .half high) :: (true, .half low) :: rest =>
    if high.val < 1024 ∧ 1024 ≤ low.val then
      .ofCode (0x10000 + high.val * 1024 + (low.val - 1024)) :: joinHalves rest
    else .half high :: joinHalves ((true, .half low) :: rest)
  | (_, s) :: rest => s :: joinHalves rest

/-- The string whose first quote has been read, and what follows it. -/
def readString? (text : Text) : Option (Text × Text) :=
  (readSymbols? text).map fun (symbols, after) => (joinHalves symbols, after)

/-- Reading the symbols of a string uses up at least its closing quote. -/
theorem readSymbols?_length {text : Text} {found : List (Bool × Symbol) × Text}
    (h : readSymbols? text = some found) : found.2.length < text.length := by
  fun_induction readSymbols? text generalizing found with
  | case1 => simp at h
  | case2 rest =>
    obtain rfl := Option.some.inj h
    simp
  | case3 a b c d rest ih =>
    obtain ⟨code, -, h⟩ := Option.bind_eq_some_iff.mp h
    obtain ⟨more, hmore, rfl⟩ := Option.map_eq_some_iff.mp h
    have := ih hmore
    simp only [withSymbol, List.length_cons]
    omega
  | case4 s rest _ ih =>
    obtain ⟨meant, -, h⟩ := Option.bind_eq_some_iff.mp h
    obtain ⟨more, hmore, rfl⟩ := Option.map_eq_some_iff.mp h
    have := ih hmore
    simp only [withSymbol, List.length_cons]
    omega
  | case5 => simp at h
  | case6 s rest _ _ _ _ ih =>
    obtain ⟨more, hmore, rfl⟩ := Option.map_eq_some_iff.mp h
    have := ih hmore
    simp only [withSymbol, List.length_cons]
    omega

/-- Reading a string uses up some of the text. -/
theorem readString?_length {text string after : Text} (h : readString? text = some (string, after)) :
    after.length < text.length := by
  obtain ⟨found, hfound, heq⟩ := Option.map_eq_some_iff.mp h
  obtain ⟨-, rfl⟩ := Prod.mk.inj heq
  exact readSymbols?_length hfound

/-- The token that is a single mark. -/
def ofMark? : Symbol → Option JsonToken
  | .char '[' => some openArray
  | .char ']' => some closeArray
  | .char '\x7b' => some openObject
  | .char '\x7d' => some closeObject
  | .char ',' => some comma
  | .char ':' => some colon
  | _ => none

/-- The tokens of a text. -/
def read? (text : Text) : Option (List JsonToken) :=
  match text with
  | [] => some []
  | s :: rest =>
    if JsonPlace.isWhite s then read? rest
    else if s = '"' then
      match h : readString? rest with
      | some (found, after) => have := readString?_length h; (read? after).map (.string found :: ·)
      | none => none
    else if JsonNumber.isPlain s then
      have := (List.dropWhile_suffix JsonNumber.isPlain (l := rest)).length_le
      (read? (rest.dropWhile JsonNumber.isPlain)).map (.word (s :: rest.takeWhile JsonNumber.isPlain) :: ·)
    else (ofMark? s).bind fun mark => (read? rest).map (mark :: ·)
termination_by text.length

/-! ## Strings -/

/-- A symbol of a string that stands for itself. -/
theorem readSymbols?_cons {s : Symbol} (hquote : s ≠ '"') (hslash : s ≠ '\\') (hcode : ¬ s.code < 0x20)
    (rest : Text) :
    readSymbols? (s :: rest) = (readSymbols? rest).map (withSymbol false s) := by
  rw [readSymbols?, if_neg hcode]
  · exact hquote
  · exact fun _ _ _ _ _ h => absurd h hslash
  · exact fun _ _ h => absurd h hslash

/-- A symbol behind a backslash that is no code. -/
theorem readSymbols?_escaped {letter s : Symbol} (h : Text.jsonEscape? letter = some s) (rest : Text) :
    readSymbols? (.char '\\' :: letter :: rest) = (readSymbols? rest).map (withSymbol false s) := by
  rw [readSymbols?, h, Option.bind_some]
  rintro a b c d rest rfl
  exact absurd h nofun

/-- A symbol that is written by its code. -/
theorem readSymbols?_code {digits : Text} (hlength : digits.length = 4) {code : Nat}
    (h : readCode? digits = some code) (rest : Text) :
    readSymbols? (.char '\\' :: .char 'u' :: digits ++ rest) =
      (readSymbols? rest).map (withSymbol true (.ofCode code)) := by
  obtain ⟨a, b, c, d, rfl⟩ := List.length_eq_four.mp hlength
  change readSymbols? (.char '\\' :: .char 'u' :: a :: b :: c :: d :: rest) = _
  rw [readSymbols?, h, Option.bind_some]

/-- A symbol as strings have it is read back. It is written by its code only if it is a control character. -/
theorem readSymbols?_jsonSymbol (s : Symbol) : ∃ marked : Bool, (marked = true → s.isHalf = false) ∧
    ∀ rest, readSymbols? (Text.jsonSymbol s ++ rest) = (readSymbols? rest).map (withSymbol marked s) := by
  rcases Text.jsonSymbol_cases s with ⟨letter, hmeant, htext⟩ | ⟨hcode, htext⟩ | ⟨⟨hquote, hslash, hcode⟩, htext⟩
  · rw [htext]
    exact ⟨false, nofun, readSymbols?_escaped hmeant⟩
  · have hhex : ∀ code < 0x20, (Text.hex 4 code).length = 4 ∧ readCode? (Text.hex 4 code) = some code := by decide
    obtain ⟨hlength, hdigits⟩ := hhex _ hcode
    have hread := readSymbols?_code hlength hdigits
    rw [s.ofCode_code] at hread
    rw [htext]
    refine ⟨true, fun _ => ?_, hread⟩
    cases s with
    | char c => rfl
    | half number =>
      simp only [Symbol.code, Symbol.firstHalf] at hcode
      omega
  · rw [htext]
    exact ⟨false, nofun, readSymbols?_cons hquote hslash hcode⟩

/-- Halves of characters that are not written by their codes stay as they are. -/
theorem joinHalves_eq {symbols : List (Bool × Symbol)} (h : ∀ p ∈ symbols, p.1 = true → p.2.isHalf = false) :
    joinHalves symbols = symbols.map (·.2) := by
  fun_induction joinHalves symbols with
  | case1 => rfl
  | case2 high low rest => exact absurd (h _ List.mem_cons_self rfl) (by simp [Symbol.isHalf])
  | case3 high low rest => exact absurd (h _ List.mem_cons_self rfl) (by simp [Symbol.isHalf])
  | case4 s rest marked _ ih =>
    rw [List.map_cons, ih fun p hp => h p (List.mem_cons_of_mem _ hp)]

/-- A quoted text is read back, whatever follows it. -/
theorem readString?_quoted (s rest : Text) :
    readString? (s.flatMap Text.jsonSymbol ++ .char '"' :: rest) = some (s, rest) := by
  have hsymbols : ∃ symbols : List (Bool × Symbol), (∀ p ∈ symbols, p.1 = true → p.2.isHalf = false) ∧
      symbols.map (·.2) = s ∧ readSymbols? (s.flatMap Text.jsonSymbol ++ .char '"' :: rest) =
        some (symbols, rest) := by
    induction s with
    | nil => exact ⟨[], nofun, rfl, rfl⟩
    | cons first more ih =>
      obtain ⟨symbols, hhalves, hmore, hread⟩ := ih
      obtain ⟨marked, hmarked, hfirst⟩ := readSymbols?_jsonSymbol first
      refine ⟨(marked, first) :: symbols, List.forall_mem_cons.mpr ⟨hmarked, hhalves⟩,
        by rw [List.map_cons, hmore], ?_⟩
      rw [List.flatMap_cons, List.append_assoc, hfirst, hread]
      rfl
  obtain ⟨symbols, hhalves, hmap, hread⟩ := hsymbols
  rw [readString?, hread, ← hmap, ← joinHalves_eq hhalves]
  rfl

/-! ## Texts one after the other -/

/-- Marks and white space that have these tokens: a number or a name in front ends there. -/
structure Separates (text : Text) (tokens : List JsonToken) : Prop where
  head : ∃ s ∈ text.head?, JsonNumber.isPlain s = false
  read (rest : Text) : read? (text ++ rest) = (read? rest).map (tokens ++ ·)

/-- A text has these tokens wherever no number or name goes on behind it. -/
def Reads (text : Text) (tokens : List JsonToken) : Prop :=
  ∀ rest, (∀ s ∈ rest.head?, JsonNumber.isPlain s = false) → read? (text ++ rest) = (read? rest).map (tokens ++ ·)

/-- A text that is read before any rest is read at the end too. -/
theorem Reads.read? {text : Text} {tokens : List JsonToken} (h : Reads text tokens) :
    JsonToken.read? text = some tokens := by
  have htext := h [] nofun
  rwa [List.append_nil, JsonToken.read?, Option.map_some, List.append_nil] at htext

/-- White space is no part of a number or a name. -/
theorem not_isPlain_of_isWhite {s : Symbol} (h : JsonPlace.isWhite s = true) : JsonNumber.isPlain s = false := by
  simp only [JsonPlace.isWhite, Bool.or_eq_true, beq_iff_eq] at h
  rcases h with ((rfl | rfl) | rfl) | rfl
  · rfl
  · rfl
  · rfl
  · rfl

/-- White space in front is skipped. -/
theorem read?_white_append {white : Text} (h : ∀ s ∈ white, JsonPlace.isWhite s = true) (rest : Text) :
    read? (white ++ rest) = read? rest := by
  induction white with
  | nil => rfl
  | cons s more ih =>
    rw [List.cons_append, read?, if_pos (h s List.mem_cons_self)]
    exact ih fun t ht => h t (List.mem_cons_of_mem _ ht)

/-- A mark is one token. -/
theorem Separates.mark {s : Symbol} {mark : JsonToken} (h : ofMark? s = some mark) : Separates [s] [mark] := by
  have hkind : JsonPlace.isWhite s = false ∧ s ≠ '"' ∧ JsonNumber.isPlain s = false := by
    unfold ofMark? at h
    split at h
    · decide
    · decide
    · decide
    · decide
    · decide
    · decide
    · simp at h
  obtain ⟨hwhite, hquote, hplain⟩ := hkind
  refine ⟨⟨s, rfl, hplain⟩, fun rest => ?_⟩
  rw [List.singleton_append, read?, hwhite, if_neg Bool.false_ne_true, if_neg hquote, hplain,
    if_neg Bool.false_ne_true, h, Option.bind_some]
  rfl

section Sequences

variable {first second between text white : Text} {tokens more marks : List JsonToken}

/-- A separator may have white space before it. -/
theorem Separates.white_append (h : Separates text tokens) (hwhite : ∀ s ∈ white, JsonPlace.isWhite s = true) :
    Separates (white ++ text) tokens where
  head := by
    cases white with
    | nil => exact h.head
    | cons s rest =>
      exact ⟨s, rfl, not_isPlain_of_isWhite (hwhite s List.mem_cons_self)⟩
  read rest := by rw [List.append_assoc, read?_white_append hwhite, h.read]

/-- A separator may have white space behind it. -/
theorem Separates.append_white (h : Separates text tokens) (hwhite : ∀ s ∈ white, JsonPlace.isWhite s = true) :
    Separates (text ++ white) tokens where
  head := by
    obtain ⟨s, hs, hplain⟩ := h.head
    exact ⟨s, by rw [List.head?_append, hs, Option.some_or]; rfl, hplain⟩
  read rest := by rw [List.append_assoc, h.read, read?_white_append hwhite]

/-- A separator is read wherever it stands. -/
theorem Separates.reads (h : Separates text tokens) : Reads text tokens := fun rest _ => h.read rest

/-- What follows a separator is read behind its marks. -/
theorem Separates.append_reads (h : Separates between marks) (hsecond : Reads second more) :
    Reads (between ++ second) (marks ++ more) := by
  intro rest hrest
  rw [List.append_assoc, h.read, hsecond rest hrest, Option.map_map]
  simp only [Function.comp_def, List.append_assoc]

/-- Texts may follow each other if the second one does not begin like a number or a name. -/
theorem Reads.append (h : Reads first tokens) (hsecond : Reads second more)
    (hhead : ∃ s ∈ second.head?, JsonNumber.isPlain s = false) : Reads (first ++ second) (tokens ++ more) := by
  obtain ⟨s, hs, hplain⟩ := hhead
  intro rest hrest
  have hnext : (second ++ rest).head? = some s := by rw [List.head?_append, hs, Option.some_or]
  have hstop : ∀ t ∈ (second ++ rest).head?, JsonNumber.isPlain t = false := by
    rintro t ht
    rw [hnext] at ht
    exact Option.some.inj ht ▸ hplain
  rw [List.append_assoc, h _ hstop, hsecond rest hrest, Option.map_map]
  simp only [Function.comp_def, List.append_assoc]

/-- Texts may follow each other with marks between them. -/
theorem Reads.separated (h : Reads first tokens) (hmarks : Separates between marks) (hsecond : Reads second more) :
    Reads (first ++ between ++ second) (tokens ++ marks ++ more) := by
  obtain ⟨s, hs, hplain⟩ := hmarks.head
  rw [List.append_assoc, List.append_assoc]
  refine h.append (hmarks.append_reads hsecond) ⟨s, ?_, hplain⟩
  rw [List.head?_append, hs, Option.some_or]
  rfl

/-- A quoted text is one token. -/
theorem Reads.quoted (s : Text) : Reads (Text.jsonQuote s) [.string s] := by
  intro rest _
  have htext : Text.jsonQuote s ++ rest = .char '"' :: (s.flatMap Text.jsonSymbol ++ .char '"' :: rest) := by
    simp [Text.jsonQuote, Text.ofString, Text.ofChars]
  have hstring := readString?_quoted s rest
  rw [htext, JsonToken.read?, if_neg (by decide), if_pos rfl]
  split
  next found after hfound =>
    obtain ⟨rfl, rfl⟩ := Prod.mk.inj (Option.some.inj (hfound.symm.trans hstring))
    rfl
  next hnone => simp [hstring] at hnone

/-- Symbols of a number or a name are one token. -/
theorem Reads.word (hne : text ≠ []) (hplain : ∀ s ∈ text, JsonNumber.isPlain s = true) :
    Reads text [.word text] := by
  intro rest hrest
  obtain ⟨s, more, rfl⟩ := List.exists_cons_of_ne_nil hne
  obtain ⟨hs, hmore⟩ := List.forall_mem_cons.mp hplain
  have hwhite : JsonPlace.isWhite s = false := by
    by_contra h
    rw [not_isPlain_of_isWhite (by simpa using h)] at hs
    exact absurd hs (by decide)
  have hquote : s ≠ '"' := by
    rintro rfl
    exact absurd hs (by decide)
  have hstop : rest.takeWhile JsonNumber.isPlain = [] ∧ rest.dropWhile JsonNumber.isPlain = rest := by
    cases rest with
    | nil => exact ⟨rfl, rfl⟩
    | cons t after => simp [hrest t rfl]
  rw [List.cons_append, JsonToken.read?, hwhite, if_neg Bool.false_ne_true, if_neg hquote, if_pos hs,
    List.takeWhile_append_of_pos hmore, List.dropWhile_append_of_pos hmore, hstop.1, hstop.2, List.append_nil]
  rfl

/-- The tokens of texts with marks between them are the tokens of the texts with the marks between them. -/
theorem Reads.joinWith (hmarks : Separates between marks) {parts : List Text} {found : List (List JsonToken)}
    (h : List.Forall₂ Reads parts found) : Reads (Text.joinWith between parts) (marks.intercalate found) := by
  induction h with
  | nil => exact fun rest _ => by simp [Text.joinWith, List.intercalate]
  | @cons part tokens rest more hpart hrest ih =>
    cases hrest with
    | nil => simpa [Text.joinWith, List.intercalate] using hpart
    | cons hnext hlater => simpa [Text.joinWith, List.intercalate] using hpart.separated hmarks ih

/-- The tokens of a container are its brackets and the tokens of its parts with commas between them. -/
theorem Reads.bracket (layout : JsonLayout) (level : Nat) {opening closing : String} {opened closed : JsonToken}
    (hopening : Separates opening [opened]) (hclosing : Separates closing [closed]) {parts : List Text}
    {found : List (List JsonToken)} (h : List.Forall₂ Reads parts found) :
    Reads (layout.bracket level opening closing parts) (opened :: [.comma].intercalate found ++ [closed]) := by
  have hcomma : Separates ("," ++ layout.newline (level + 1)) [.comma] :=
    (Separates.mark rfl).append_white fun _ => layout.isWhite_of_mem_newline (level + 1)
  have hopen := hopening.append_white fun _ => layout.isWhite_of_mem_newline (level + 1)
  have hclose := hclosing.white_append fun _ => layout.isWhite_of_mem_newline level
  unfold JsonLayout.bracket
  cases h with
  | nil => exact hopening.append_reads hclosing.reads
  | cons hpart hrest =>
    have hparts := hopen.append_reads (Reads.joinWith hcomma (.cons hpart hrest))
    have hall := hparts.append hclose.reads hclose.head
    simpa only [List.append_assoc, List.singleton_append, List.cons_append, List.nil_append, List.isEmpty_cons,
      Bool.false_eq_true, if_false] using hall

end Sequences

end JsonToken
end TestPlan
