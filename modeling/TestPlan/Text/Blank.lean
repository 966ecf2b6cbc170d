import TestPlan.Text.Symbol

/-!
# Blank symbols and lines

Which symbols count as blank, which ones end a line, how a text is trimmed and how it falls into lines.
Every end of a line is blank (`isBlank_of_endsLine`), but not the other way round: `U+001F` is blank
without ending a line.
-/

namespace TestPlan.Text

/-- White space, as trimmed from the ends of names, values and operands. -/
def isBlank (s : Symbol) : Bool :=
  let n := s.code
  (0x09 ≤ n && n ≤ 0x0D) || (0x1C ≤ n && n ≤ 0x20) || n == 0x85 || n == 0xA0 || n == 0x1680 ||
    (0x2000 ≤ n && n ≤ 0x200A) || n == 0x2028 || n == 0x2029 || n == 0x202F || n == 0x205F ||
    n == 0x3000

/-- The symbols that end a line of a profile. -/
def endsLine (s : Symbol) : Bool :=
  let n := s.code
  (0x0A ≤ n && n ≤ 0x0D) || (0x1C ≤ n && n ≤ 0x1E) || n == 0x85 || n == 0x2028 || n == 0x2029

/-- Remove the symbols of a class from both ends of a text. -/
def trimBoth (class? : Symbol → Bool) (text : Text) : Text :=
  ((text.dropWhile class?).reverse.dropWhile class?).reverse

/-- Remove white space from both ends of a text. -/
def trim (text : Text) : Text := trimBoth isBlank text

/-- A text without the line feed at its end, if there is one. -/
def dropFinalNewline (text : Text) : Text :=
  if text.getLast? == some '\n' then text.dropLast else text

/-- The lines of a text without their ends; a carriage return and the line feed after it are one
end, and a text that ends with a line end has no further empty line. -/
def lines : Text → List Text
  | [] => []
  | .char '\r' :: .char '\n' :: rest => [] :: lines rest
  | s :: rest =>
    if endsLine s then [] :: lines rest
    else match lines rest with
      | [] => [[s]]
      | line :: others => (s :: line) :: others

/-- Every end of a line is white space. -/
theorem isBlank_of_endsLine {s : Symbol} (h : endsLine s = true) : isBlank s = true := by
  simp only [endsLine, isBlank, Bool.or_eq_true, Bool.and_eq_true, decide_eq_true_eq,
    beq_iff_eq] at h ⊢
  omega

end TestPlan.Text
