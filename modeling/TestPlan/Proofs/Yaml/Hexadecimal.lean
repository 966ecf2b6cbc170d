import TestPlan.Proofs.Content

/-!
# Integers of any length in documents

Integers are read in decimal up to a limit on their digits only, but in hexadecimal there is no limit: every natural
number, written in hexadecimal, is a document that has it as its value (`Yaml.read_hexadecimal`), also when it is
read from bytes (`Yaml.heldIn_hexadecimal`). So files may hold integers that are too long to be written.
-/

namespace TestPlan

namespace Number

/-- A number in hexadecimal, with the sign of the base in front. -/
def hexadecimal (n : Nat) : List Char := '0' :: 'x' :: Nat.toDigits 16 n

/-- What holds of the sixteen digits holds of the digits of a number. -/
theorem forall_mem_toDigits {P : Char → Prop} (h : ∀ d < 16, P (Nat.digitChar d)) (n : Nat) :
    ∀ c ∈ Nat.toDigits 16 n, P c := by
  induction n using Nat.strongRecOn with
  | ind n ih =>
    rw [Nat.toDigits_eq_if (by decide)]
    split
    next hlt => exact List.forall_mem_singleton.mpr (h n hlt)
    next hle =>
      refine List.forall_mem_append.mpr ⟨ih (n / 16) (by omega), List.forall_mem_singleton.mpr (h _ ?_)⟩
      exact Nat.mod_lt n (by decide)

/-- Reading the digits of a number gives it back. -/
theorem ofDigits_toDigits (n : Nat) : ofDigits 16 (.ofChars (Nat.toDigits 16 n)) = n := by
  have hvalue : ∀ d < 16, digitValue? (.char (Nat.digitChar d)) = some d := by decide
  induction n using Nat.strongRecOn with
  | ind n ih =>
    rw [Nat.toDigits_eq_if (by decide)]
    split
    next hlt => simp [ofDigits, Text.ofChars, hvalue n hlt]
    next hle =>
      have hrest := ih (n / 16) (by omega)
      rw [ofDigits, Text.ofChars] at hrest
      rw [ofDigits, Text.ofChars, List.map_append, List.foldl_append, hrest, List.map_singleton, List.foldl_cons,
        List.foldl_nil, hvalue _ (Nat.mod_lt n (by decide)), Option.getD_some]
      omega

/-- A typed text without padding and with plain digits only is taken as it is. -/
theorem plainText_eq_self {text : Text} (h : ∀ s ∈ text, isPadding s = false ∧ plainDigit s = s) :
    plainText text = text := by
  have hdrop (front : Text) (hfront : ∀ s ∈ front, s ∈ text) : front.dropWhile isPadding = front := by
    cases front with
    | nil => rfl
    | cons s rest => rw [List.dropWhile_cons_of_neg (by simp [(h s (hfront s List.mem_cons_self)).1])]
  rw [plainText, Text.trimBoth, hdrop text fun _ hs => hs, hdrop _ fun _ hs => List.mem_reverse.mp hs,
    List.reverse_reverse]
  exact (List.map_congr_left fun s hs => (h s hs).2).trans (List.map_id' text)

/-- Digits are taken as far as they go. -/
theorem takeDigits_eq_self {base : Nat} {text : Text} (h : ∀ s ∈ text, isDigitIn base s = true) :
    takeDigits base text = (text, []) := by
  induction text with
  | nil => rfl
  | cons s rest ih =>
    rw [takeDigits, if_pos (h s List.mem_cons_self), ih fun t ht => h t (List.mem_cons_of_mem _ ht)]

/-- A text that begins with no sign is taken without one. -/
theorem takeSign_eq_self {text : Text} (h : ∀ s ∈ text, s ≠ '-' ∧ s ≠ '+') : takeSign text = (false, text) := by
  unfold takeSign
  split
  next => exact absurd rfl (h _ List.mem_cons_self).1
  next => exact absurd rfl (h _ List.mem_cons_self).2
  next => rfl

/-- Hexadecimal digits have no sign of a base in front. -/
theorem dropBaseSign_eq_self {text : Text} (h : ∀ s ∈ text, s ≠ 'x' ∧ s ≠ 'X') : dropBaseSign 16 text = text := by
  unfold dropBaseSign
  split
  next letter rest =>
    have hletter := h letter (List.mem_cons_of_mem _ List.mem_cons_self)
    rw [if_neg (by simp [baseLetters, hletter.1, hletter.2])]
  next => rfl

/-- What holds of the sixteen digits holds of the symbols of a number in hexadecimal. -/
theorem forall_mem_digits {P : Symbol → Prop} (h : ∀ d < 16, P (.char (Nat.digitChar d))) (n : Nat) :
    ∀ s ∈ Text.ofChars (Nat.toDigits 16 n), P s :=
  List.forall_mem_map.mpr (forall_mem_toDigits h n)

/-- A number in hexadecimal digits is read as it is typed. -/
theorem readTyped_toDigits (n : Nat) : readTyped 16 (.ofChars (Nat.toDigits 16 n)) = .ok n := by
  have hplain := plainText_eq_self (forall_mem_digits (by decide) n)
  have hsign := takeSign_eq_self (forall_mem_digits (by decide) n)
  have hbase := dropBaseSign_eq_self (forall_mem_digits (by decide) n)
  have htaken : takeDigits 16 (.ofChars (Nat.toDigits 16 n)) = (.ofChars (Nat.toDigits 16 n), []) :=
    takeDigits_eq_self (forall_mem_digits (by decide) n)
  have hne : Text.ofChars (Nat.toDigits 16 n) ≠ [] := mt List.map_eq_nil_iff.mp Nat.toDigits_ne_nil
  have hscore : ∀ s ∈ Text.ofChars (Nat.toDigits 16 n), s ≠ '_' := forall_mem_digits (by decide) n
  have hhead : (Text.ofChars (Nat.toDigits 16 n)).head? ≠ some (.char '_') := fun hhead =>
    hscore _ (List.mem_of_head? hhead) rfl
  simp [readTyped, hplain, hsign, hbase, readDigits, htaken, hne, hhead, ofDigits_toDigits, bind, Except.bind, pure,
    Except.pure]

end Number

namespace Text

/-- A character of ASCII is one byte. -/
theorem utf8_of_ascii {c : Char} (h : c.toNat < 0x80) : utf8 (.char c) = [c.toNat.toUInt8] := by
  have hval : c.toNat ≤ 0x7f := by omega
  rw [utf8, String.utf8EncodeChar]
  simp [hval]

/-- A byte of ASCII begins with its character. -/
theorem utf8Start_of_ascii {c : Char} (h : c.toNat < 0x80) (rest : List UInt8) :
    utf8Start c.toNat.toUInt8 rest = .char c 0 := by
  have hbyte : c.toNat.toUInt8 < 0x80 := by
    simp [UInt8.lt_iff_toNat_lt]
    omega
  have hcode : c.toNat.toUInt8.toNat = c.toNat := by simp; omega
  simp [utf8Start, sequence?, hbyte, fitting, codePoint, hcode]

/-- Bytes of ASCII are read as their characters. -/
theorem decodeFrom_ascii {chars : List Char} (h : ∀ c ∈ chars, c.toNat < 0x80) (position : Nat) :
    decodeFrom position ((ofChars chars).flatMap utf8) = .ok chars := by
  induction chars generalizing position with
  | nil => rw [ofChars, List.map_nil, List.flatMap_nil, decodeFrom]
  | cons c rest ih =>
    have hc := h c List.mem_cons_self
    rw [ofChars, List.map_cons, List.flatMap_cons, utf8_of_ascii hc, List.singleton_append, decodeFrom,
      utf8Start_of_ascii hc]
    have hrest := ih (fun d hd => h d (List.mem_cons_of_mem _ hd)) (position + 1)
    rw [ofChars] at hrest
    simp only [List.drop_zero, Nat.add_zero, hrest, bind, Except.bind, pure, Except.pure]
/-- Newlines are unified by doing nothing where no carriage return is. -/
theorem unifyNewlines_eq_self {chars : List Char} (h : ∀ c ∈ chars, c ≠ '\r') : unifyNewlines chars = chars := by
  induction chars with
  | nil => rfl
  | cons c rest ih =>
    have hc := h c List.mem_cons_self
    have hrest := ih fun d hd => h d (List.mem_cons_of_mem _ hd)
    unfold unifyNewlines
    split
    next heq => cases heq
    next heq => exact absurd (List.cons.inj heq).1 hc
    next heq =>
      obtain ⟨rfl, rfl⟩ := List.cons.inj heq
      rw [if_neg hc, hrest]

end Text

namespace Yaml

namespace Scalar

/-- A text that begins like a number in hexadecimal is no word for nothing or for a truth value. -/
theorem isWord_hexadecimal (rest : Text) : isNullText (.char '0' :: .char 'x' :: rest) = false ∧
    isWord trueWords (.char '0' :: .char 'x' :: rest) = false ∧
    isWord falseWords (.char '0' :: .char 'x' :: rest) = false :=
  ⟨rfl, rfl, rfl⟩

/-- A number in hexadecimal is an integer. -/
theorem plainTag_hexadecimal (n : Nat) : plainTag (.ofChars (Number.hexadecimal n)) = .int := by
  have hne : Text.ofChars (Nat.toDigits 16 n) ≠ [] := mt List.map_eq_nil_iff.mp Nat.toDigits_ne_nil
  have hdigits : (Text.ofChars (Nat.toDigits 16 n)).all (isDigitOf 16) = true :=
    List.all_eq_true.mpr (Number.forall_mem_digits (by decide) n)
  have hline : ∀ s ∈ Text.ofChars (Nat.toDigits 16 n), s ≠ '\n' := Number.forall_mem_digits (by decide) n
  have htext : Text.ofChars (Number.hexadecimal n) = .char '0' :: .char 'x' :: Text.ofChars (Nat.toDigits 16 n) :=
    rfl
  obtain ⟨hnull, htrue, hfalse⟩ := isWord_hexadecimal (.ofChars (Nat.toDigits 16 n))
  rw [htext]
  generalize Text.ofChars (Nat.toDigits 16 n) = digits at *
  have hform : form (.char '0' :: .char 'x' :: digits) = .char '0' :: .char 'x' :: digits := by
    have hlast : (Symbol.char '0' :: .char 'x' :: digits).getLast? ≠ some (.char '\n') := fun hlast => by
      rw [List.getLast?_cons_cons, List.getLast?_cons_of_ne_nil hne] at hlast
      exact hline _ (List.mem_of_getLast? hlast) rfl
    have hbreak : (Symbol.char '0' :: .char 'x' :: digits == Text.ofString "\n") = false := rfl
    rw [form, hbreak, if_neg Bool.false_ne_true, Text.dropFinalNewline, if_neg (by simpa using hlast)]
  have hint : isIntText (.char '0' :: .char 'x' :: digits) = true := by
    change nonemptyAll (isDigitOf 16) digits = true
    simp [nonemptyAll, hne, hdigits]
  simp [plainTag, hform, hnull, htrue, hfalse, hint]

/-- A number in hexadecimal is the integer that it says. -/
theorem readInt_hexadecimal (n : Nat) : readInt (.ofChars (Number.hexadecimal n)) = .ok n := by
  have hscore : ∀ s ∈ Text.ofChars (Nat.toDigits 16 n), (s != '_') = true := Number.forall_mem_digits (by decide) n
  have hfilter : (Text.ofChars (Number.hexadecimal n)).filter (· != .char '_') =
      .char '0' :: .char 'x' :: Text.ofChars (Nat.toDigits 16 n) :=
    List.filter_eq_self.mpr (List.forall_mem_cons.mpr ⟨rfl, List.forall_mem_cons.mpr ⟨rfl, hscore⟩⟩)
  have hread := Number.readTyped_toDigits n
  rw [readInt, hfilter]
  simp [Number.takeSign, intIn, hread, Except.mapError, bind, Except.bind, pure, Except.pure]

end Scalar

/-- Moving on by so many characters drops them. -/
theorem Cursor.rest_skip (c : Cursor) (count : Nat) : (c.skip count).rest = c.rest.drop count := by
  induction count generalizing c with
  | zero => rfl
  | succ count ih =>
    have hnext : c.next.rest = c.rest.tail := by
      unfold next
      split
      next h => rw [h, List.tail_nil]
      next h =>
        rw [h, List.tail_cons]
        split
        · rfl
        · split <;> rfl
    rw [skip, ih, hnext, List.drop_tail]

/-- A word of a plain scalar goes as far as there are no gaps and no colons. -/
theorem plainWord_eq_self {chars : List Char} (h : ∀ c ∈ chars, isGap c = false ∧ c ≠ ':') :
    plainWord false chars = (.ofChars chars, []) := by
  induction chars with
  | nil => rfl
  | cons c rest ih =>
    obtain ⟨hgap, hcolon⟩ := h c List.mem_cons_self
    rw [plainWord, ih fun d hd => h d (List.mem_cons_of_mem _ hd)]
    simp [hgap, hcolon, Text.ofChars]

/-- A text without gaps and colons is one plain scalar, unless it begins like a comment. -/
theorem plainText_eq_self {chars : List Char} (h : ∀ c ∈ chars, isGap c = false ∧ c ≠ ':') (hne : chars ≠ [])
    (hmark : first chars ≠ '#') (indent : Int) : plainText false indent chars = ⟨.ofChars chars, [], false⟩ := by
  have hword : (Text.ofChars chars).isEmpty = false := by simp [Text.ofChars, hne]
  simp [plainText, plainFrom, plainWord_eq_self h, hword, hmark, lineBreak?]

namespace Layout

/-- No candidate for a key has to become one. -/
def IsFree (s : Layout) : Prop := ∀ candidate ∈ s.candidates, candidate.2.required = false

/-- Candidates that need not become keys can be given up. -/
theorem IsFree.giveUp {s : Layout} (h : s.IsFree) : ∃ next, s.giveUp = .ok next ∧ next.tokens = s.tokens := by
  unfold Layout.giveUp candidate?
  cases hfound : s.candidates.find? fun candidate => candidate.1 == s.depth with
  | none => exact ⟨s, rfl, rfl⟩
  | some candidate =>
    have hrequired := h candidate (List.mem_of_find?_eq_some hfound)
    exact ⟨s.forget, by simp [hrequired], rfl⟩

/-- Candidates that need not become keys are forgotten when it is too late for them. -/
theorem IsFree.dropStale {s : Layout} (h : s.IsFree) :
    s.dropStale = .ok { s with candidates := s.candidates.filter fun candidate => !s.isStale candidate.2 } := by
  refine if_neg fun hstale => ?_
  obtain ⟨candidate, hmem, hrequired⟩ := List.any_eq_true.mp hstale
  replace hrequired := (Bool.and_eq_true_iff.mp hrequired).2
  rw [h candidate hmem] at hrequired
  cases hrequired

/-- At the end of the text the tokens end, unless a bracket or a block is open. -/
theorem IsFree.step_of_end {s : Layout} (h : s.IsFree) (hrest : s.cursor.rest = []) (hdepth : s.depth = 0)
    (houter : s.outer = []) : ∃ next, s.step = .ok next ∧ next.tokens = .textEnd :: s.tokens := by
  have hgap : s.skipGap = { s with keyAllowed := s.keyAllowed } := by
    have hchar : s.cursor.char = endMark := by rw [Cursor.char, hrest]; rfl
    have hmark : (endMark == byteOrderMark) = false := rfl
    simp [skipGap, hchar, hmark, gapLength, Layout.rest, hrest, Layout.skip, Cursor.skip]
  let rested : Layout := { s with candidates := s.candidates.filter fun candidate => !s.isStale candidate.2 }
  have hclosed (column : Int) : rested.closeBlocks column = rested := by
    simp [closeBlocks, inFlow, rested, hdepth, houter, closeBlocks.close]
  have hfree : rested.IsFree := fun candidate hmem => h candidate (List.mem_filter.mp hmem).1
  obtain ⟨next, hnext, htokens⟩ := hfree.giveUp
  refine ⟨{ next.emit .textEnd with keyAllowed := false, candidates := [] }, ?_,
    congrArg (Token.textEnd :: ·) htokens⟩
  have htoken : rested.token = rested.textEnd := if_pos (by rw [Cursor.char, hrest]; rfl)
  rw [step, hgap, h.dropStale]
  change (rested.closeBlocks _).token = _
  rw [hclosed, htoken, textEnd, hclosed, hnext]
  rfl

/-- A number in hexadecimal is one scalar, and it goes up to the end of the text. -/
theorem step_hexadecimal (rest : List Char) (h : ∀ c ∈ rest, isGap c = false ∧ c ≠ ':') :
    ∃ next, (start ('0' :: 'x' :: rest)).step = .ok next ∧ next.IsFree ∧ next.cursor.rest = [] ∧ next.depth = 0 ∧
      next.outer = [] ∧ next.tokens = [.scalar (.ofChars ('0' :: 'x' :: rest)) true] := by
  have hstep : (start ('0' :: 'x' :: rest)).step = (start ('0' :: 'x' :: rest)).plainScalar := rfl
  have hremember : (start ('0' :: 'x' :: rest)).remember =
      .ok { start ('0' :: 'x' :: rest) with candidates := [(0, ⟨0, false, 0, 0, 0⟩)] } := rfl
  have hword : ∀ c ∈ '0' :: 'x' :: rest, isGap c = false ∧ c ≠ ':' :=
    List.forall_mem_cons.mpr ⟨by decide, List.forall_mem_cons.mpr ⟨by decide, h⟩⟩
  have hfound := plainText_eq_self hword (List.cons_ne_nil _ _) (show '0' ≠ '#' by decide) (-1 + 1)
  rw [hstep, plainScalar, hremember]
  refine ⟨_, rfl, List.forall_mem_singleton.mpr rfl, ?_, rfl, rfl, ?_⟩
  · change ((Cursor.start _).skipTo (plainText false (-1 + 1) ('0' :: 'x' :: rest)).rest).rest = []
    rw [hfound, Cursor.skipTo, Cursor.rest_skip]
    exact List.drop_length
  · exact congrArg (fun found : PlainText => [Token.scalar found.text true]) hfound

end Layout

/-- The tokens of a number in hexadecimal are one scalar. -/
theorem tokens_hexadecimal (n : Nat) :
    tokens (Number.hexadecimal n) = ⟨[.scalar (.ofChars (Number.hexadecimal n)) true, .textEnd], none⟩ := by
  have hdigits := Number.forall_mem_toDigits (P := fun c => isAllowed c = true ∧ isGap c = false ∧ c ≠ ':')
    (by decide) n
  obtain ⟨word, hword, hfree, hrest, hdepth, houter, htokens⟩ :=
    Layout.step_hexadecimal (Nat.toDigits 16 n) fun c hc => (hdigits c hc).2
  obtain ⟨last, hlast, hall⟩ := hfree.step_of_end hrest hdepth houter
  have hallowed : (Number.hexadecimal n).all isAllowed = true :=
    List.all_eq_true.mpr <| List.forall_mem_cons.mpr
      ⟨rfl, List.forall_mem_cons.mpr ⟨rfl, fun c hc => (hdigits c hc).1⟩⟩
  have hlength : (Number.hexadecimal n).length + 1 = (Nat.toDigits 16 n).length + 1 + 1 + 1 := rfl
  rw [tokens, if_pos hallowed, hlength, Layout.run, Number.hexadecimal, hword]
  simp only [htokens, Layout.run, hlast, hall]
  rfl

/-- Every natural number, written in hexadecimal, is a document, and its value is the number. -/
theorem read_hexadecimal [Runtime] (n : Nat) : read (.ofChars (Number.hexadecimal n)) = .ok (.int n) := by
  have htag := Scalar.plainTag_hexadecimal n
  have hvalue := Scalar.readInt_hexadecimal n
  rw [read, Text.chars?_ofChars]
  simp only [tokens_hexadecimal]
  generalize Text.ofChars (Number.hexadecimal n) = text at *
  let table : NodeTable := ⟨#[⟨.int, .scalar text⟩], []⟩
  have hnodes : NodeTable.ofTokens? ⟨[.scalar text true, .textEnd], none⟩ = .ok (some (0, table)) := by
    rw [show table = ⟨#[⟨Scalar.plainTag text, .scalar text⟩], []⟩ by rw [htag]]
    rfl
  have hscalar : table.scalar 0 = .ok (.int n, false) := by
    change (Scalar.read .int text).map (·, false) = _
    rw [Scalar.read, hvalue]
    rfl
  have hbuild : (Construction.start table).build 0 = .ok (⟨.scalar (.int n), some 0⟩,
      { Construction.start table with built := #[some ⟨.scalar (.int n), some 0⟩] }) := by
    change (table.scalar 0).bind _ = _
    rw [hscalar]
    rfl
  rw [hnodes]
  change valueOf table 0 = _
  rw [valueOf, hbuild]
  rfl

/-- The bytes of a number in hexadecimal hold the number. -/
theorem heldIn_hexadecimal [Runtime] (n : Nat) :
    HeldIn ((Text.ofChars (Number.hexadecimal n)).flatMap Text.utf8) (.ok (.int n)) := by
  have hdigits := Number.forall_mem_toDigits (P := fun c => c.toNat < 0x80 ∧ c ≠ '\r') (by decide) n
  have hchars : ∀ c ∈ Number.hexadecimal n, c.toNat < 0x80 ∧ c ≠ '\r' :=
    List.forall_mem_cons.mpr ⟨by decide, List.forall_mem_cons.mpr ⟨by decide, hdigits⟩⟩
  have hdecode := Text.decodeFrom_ascii (fun c hc => (hchars c hc).1) 0
  refine ⟨_, Text.ofBytes_of_ok hdecode, ?_⟩
  rw [Text.unifyNewlines_eq_self fun c hc => (hchars c hc).2, read_hexadecimal]

end Yaml
end TestPlan
