import TestPlan.Text.Blank

/-!
# Lines of texts

A text is written in lines when each line, which has no line end in it, is followed by one, and the last line
may lack it (`Text.WritesLines`). Every text is written in the lines that it falls into (`Text.writesLines_lines`).
The other way round this is not quite true: a carriage return and a line feed make one end together, so that an
empty line may get lost between them. No other line does. So whatever is read off lines, and nothing off empty
ones, is the same in all ways of writing them (`Text.WritesLines.filterMap_lines`), and texts with a line end
between them are read one after the other (`Text.filterMap_lines_append`).
-/

namespace TestPlan.Text

variable {line rest text newline : Text} {others : List Text} {s : Symbol}

/-- What ends a line: one of the symbols that do, or a carriage return with a line feed. -/
def IsLineEnd (newline : Text) : Prop :=
  (∃ s, endsLine s = true ∧ newline = [s]) ∨ newline = [.char '\r', .char '\n']

/-- A text without line ends. -/
def IsUnbroken (text : Text) : Prop := ∀ s ∈ text, endsLine s = false

/-- Whether a text is one line is decided symbol by symbol. -/
instance (text : Text) : Decidable text.IsUnbroken := inferInstanceAs (Decidable (∀ s ∈ text, endsLine s = false))

/-- Lines written one after the other, each with a line end behind it, which the last one may lack. -/
inductive WritesLines : List Text → Text → Prop
  | nil : WritesLines [] []
  | last {line : Text} (hline : IsUnbroken line) : WritesLines [line] line
  | cons {line newline rest : Text} {others : List Text} (hline : IsUnbroken line) (hend : IsLineEnd newline)
      (hrest : WritesLines others rest) : WritesLines (line :: others) (line ++ newline ++ rest)

/-- Written lines have no line ends in them. -/
theorem WritesLines.isUnbroken (h : WritesLines others text) : ∀ line ∈ others, IsUnbroken line := by
  induction h with
  | nil => exact nofun
  | last hline => exact List.forall_mem_singleton.mpr hline
  | cons hline _ _ ih => exact List.forall_mem_cons.mpr ⟨hline, ih⟩

/-- A symbol within a line belongs to the line that follows it. -/
theorem lines_cons (hs : endsLine s = false) (h : lines rest = line :: others) :
    lines (s :: rest) = (s :: line) :: others := by
  rw [lines]
  · simp [hs, h]
  · rintro more rfl -
    exact absurd hs (by decide)

/-- An unbroken text is one line, unless it is empty. -/
theorem lines_of_isUnbroken (h : IsUnbroken line) (hne : line ≠ []) : lines line = [line] := by
  induction line with
  | nil => exact absurd rfl hne
  | cons s line ih =>
    obtain ⟨hs, hline⟩ := List.forall_mem_cons.mp h
    cases line with
    | nil => simp [lines, hs]
    | cons t line => exact lines_cons hs (ih hline (List.cons_ne_nil t line))

/-- A text that begins with a symbol that ends lines begins with a line end, and goes on behind it. -/
theorem exists_newline (hs : endsLine s = true) (rest : Text) : ∃ newline more,
    IsLineEnd newline ∧ s :: rest = newline ++ more ∧ lines (s :: rest) = [] :: lines more := by
  by_cases hpair : ∃ more, s = .char '\r' ∧ rest = .char '\n' :: more
  · obtain ⟨more, rfl, rfl⟩ := hpair
    exact ⟨[.char '\r', .char '\n'], more, .inr rfl, rfl, by rw [lines]⟩
  · refine ⟨[s], rest, .inl ⟨s, hs, rfl⟩, rfl, ?_⟩
    rw [lines]
    · simp [hs]
    · exact fun more hreturn hfeed => hpair ⟨more, hreturn, hfeed⟩

/-- A text is unbroken, or it begins with a line. -/
theorem isUnbroken_or_exists_line (text : Text) : IsUnbroken text ∨
    ∃ line newline rest, IsUnbroken line ∧ IsLineEnd newline ∧ text = line ++ newline ++ rest ∧
      lines text = line :: lines rest := by
  induction text with
  | nil => exact .inl nofun
  | cons s text ih =>
    by_cases hs : endsLine s = true
    · obtain ⟨newline, more, hend, hparts, hlines⟩ := exists_newline hs text
      exact .inr ⟨[], newline, more, nofun, hend, hparts, hlines⟩
    · have hs : endsLine s = false := by simpa using hs
      rcases ih with h | ⟨line, newline, rest, hline, hend, rfl, hlines⟩
      · exact .inl (List.forall_mem_cons.mpr ⟨hs, h⟩)
      · exact .inr ⟨s :: line, newline, rest, List.forall_mem_cons.mpr ⟨hs, hline⟩, hend, rfl, lines_cons hs hlines⟩

/-- The end of a line is not empty. -/
theorem IsLineEnd.length_pos (h : IsLineEnd newline) : 0 < newline.length := by
  rcases h with ⟨s, -, rfl⟩ | rfl
  · exact Nat.one_pos
  · exact Nat.two_pos

/-- Every text is written in its lines. -/
theorem writesLines_lines (text : Text) : WritesLines (lines text) text := by
  induction hlength : text.length using Nat.strongRecOn generalizing text with
  | ind length ih =>
    rcases isUnbroken_or_exists_line text with h | ⟨line, newline, rest, hline, hend, rfl, hlines⟩
    · by_cases hne : text = []
      · rw [hne, lines]
        exact .nil
      · rw [lines_of_isUnbroken h hne]
        exact .last h
    · have hpos := hend.length_pos
      rw [List.length_append, List.length_append] at hlength
      rw [hlines]
      exact .cons hline hend (ih rest.length (by omega) rest rfl)

variable {α : Type} {read : Text → Option α}

/-- What is read behind a line end is read off the pieces behind it. -/
theorem IsLineEnd.filterMap_splitOnP (hread : read [] = none) (hend : IsLineEnd newline) (first second : Text) :
    ((first ++ newline ++ second).splitOnP endsLine).filterMap read =
      (first.splitOnP endsLine).filterMap read ++ (second.splitOnP endsLine).filterMap read := by
  rw [List.append_assoc]
  rcases hend with ⟨s, hs, rfl⟩ | rfl
  · rw [List.singleton_append, List.splitOnP_append_cons _ _ hs, List.filterMap_append]
  · -- There is nothing between the two symbols.
    have hfeed : (Symbol.char '\n' :: second).splitOnP endsLine = [] :: second.splitOnP endsLine :=
      List.splitOnP_append_cons [] second rfl
    rw [List.cons_append, List.singleton_append, List.splitOnP_append_cons _ _ rfl, hfeed, List.filterMap_append,
      List.filterMap_cons_none hread]

/-- What is read off written lines is read off the pieces between the symbols that end lines. -/
theorem WritesLines.filterMap_splitOnP (hread : read [] = none) (h : WritesLines others text) :
    (text.splitOnP endsLine).filterMap read = others.filterMap read := by
  induction h with
  | nil => rw [List.splitOnP_nil, List.filterMap_cons_none hread]
  | last hline => rw [List.splitOnP_eq_singleton hline]
  | @cons line newline rest others hline hend _ ih =>
    rw [hend.filterMap_splitOnP hread, List.splitOnP_eq_singleton hline, ih, ← List.filterMap_append,
      List.singleton_append]

/-- What is read off the lines of a text is what is read off the lines that it was written in. -/
theorem WritesLines.filterMap_lines (hread : read [] = none) (h : WritesLines others text) :
    (lines text).filterMap read = others.filterMap read := by
  rw [← (writesLines_lines text).filterMap_splitOnP hread, h.filterMap_splitOnP hread]

/-- Texts with a line end between them are read one after the other. -/
theorem filterMap_lines_append (hread : read [] = none) (hend : IsLineEnd newline) (first second : Text) :
    (lines (first ++ newline ++ second)).filterMap read =
      (lines first).filterMap read ++ (lines second).filterMap read := by
  have hpieces (text : Text) : (lines text).filterMap read = (text.splitOnP endsLine).filterMap read :=
    ((writesLines_lines text).filterMap_splitOnP hread).symm
  rw [hpieces, hpieces, hpieces, hend.filterMap_splitOnP hread]

end TestPlan.Text
