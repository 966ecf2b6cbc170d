import Mathlib.Data.List.DropRight
import TestPlan.Text.Blank
import TestPlan.Text.Split

/-!
# Pieces of texts

Joining pieces with a symbol and splitting a text at it undo each other, as long as the symbol is in no piece
(`Text.split_eq_iff`). Trimming undoes putting white space around a text, as long as the text has none at its
ends itself (`Text.trim_eq_iff`).
-/

namespace TestPlan.Text

variable {sep s : Symbol} {text core : Text} {pieces : List Text}

/-- Splitting a text is splitting a list. -/
theorem split_eq_splitOn (sep : Symbol) (text : Text) : split sep text = text.splitOn sep := by
  induction text with
  | nil => rfl
  | cons s rest ih =>
    rw [split, List.splitOn_cons_eq_if_modifyHead, ih]
    by_cases hs : s = sep
    · simp [hs]
    · obtain ⟨piece, others, hpieces⟩ := List.exists_cons_of_ne_nil (List.splitOn_ne_nil sep rest)
      simp [hs, hpieces]

/-- Joining pieces is putting the symbol between them. -/
theorem join_eq_intercalate (sep : Symbol) (pieces : List Text) : join sep pieces = [sep].intercalate pieces := by
  induction pieces with
  | nil => rfl
  | cons piece others ih =>
    cases others with
    | nil => simp [join]
    | cons next rest => simp [join, ih, List.intercalate_cons_cons]

/-- The symbol at which a text is split is in none of the pieces. -/
theorem not_mem_of_mem_split {piece : Text} (h : piece ∈ split sep text) : sep ∉ piece := by
  induction text generalizing piece with
  | nil => simp_all [split]
  | cons s rest ih =>
    obtain ⟨first, others, hpieces⟩ := List.exists_cons_of_ne_nil (split_ne_nil sep rest)
    rw [split] at h
    split at h
    · rcases List.mem_cons.mp h with rfl | h
      · exact List.not_mem_nil
      · exact ih h
    next hs =>
      rw [hpieces] at h ih
      rcases List.mem_cons.mp h with rfl | h
      · simpa [Ne.symm hs] using ih List.mem_cons_self
      · exact ih (List.mem_cons_of_mem _ h)

/-- A text has exactly the pieces without the symbol from which it is joined. -/
theorem split_eq_iff : split sep text = pieces ↔
    pieces ≠ [] ∧ (∀ piece ∈ pieces, sep ∉ piece) ∧ text = join sep pieces := by
  constructor
  · rintro rfl
    exact ⟨split_ne_nil sep text, fun _ => not_mem_of_mem_split, (join_split sep text).symm⟩
  · rintro ⟨hne, hnone, rfl⟩
    rw [split_eq_splitOn, join_eq_intercalate, List.splitOn_intercalate sep hnone hne]

/-- What is in joined pieces besides the symbol between them is in one of them. -/
theorem mem_join_iff (h : s ≠ sep) : s ∈ join sep pieces ↔ ∃ piece ∈ pieces, s ∈ piece := by
  induction pieces with
  | nil => simp [join]
  | cons piece others ih =>
    cases others with
    | nil => simp [join]
    | cons next rest => simp only [join, List.mem_append, List.mem_cons, h, false_or, ih, exists_eq_or_imp]

/-- A text of nothing but white space. -/
def IsWhite (text : Text) : Prop := ∀ s ∈ text, isBlank s = true

/-- Whether a text is white is decided symbol by symbol. -/
instance (text : Text) : Decidable text.IsWhite := inferInstanceAs (Decidable (∀ s ∈ text, isBlank s = true))

/-- A text without white space at its ends. -/
structure IsTrimmed (text : Text) : Prop where
  first : ∀ s ∈ text.head?, isBlank s = false
  last : ∀ s ∈ text.getLast?, isBlank s = false

/-- Whether there are blanks at the ends of a text is decided by its first and last symbol. -/
instance (text : Text) : Decidable text.IsTrimmed :=
  decidable_of_iff ((∀ s ∈ text.head?, isBlank s = false) ∧ ∀ s ∈ text.getLast?, isBlank s = false)
    ⟨fun ⟨hfirst, hlast⟩ => ⟨hfirst, hlast⟩, fun ⟨hfirst, hlast⟩ => ⟨hfirst, hlast⟩⟩

/-- A text with white space around it. -/
def IsPadded (core text : Text) : Prop :=
  ∃ before after, IsWhite before ∧ IsWhite after ∧ text = before ++ core ++ after

/-- Every text is itself without padding. -/
theorem isPadded_refl (text : Text) : IsPadded text text := ⟨[], [], nofun, nofun, by simp⟩

/-- White space around a text adds no other symbols. -/
theorem IsPadded.mem_iff (h : IsPadded core text) (hs : isBlank s = false) : s ∈ text ↔ s ∈ core := by
  obtain ⟨before, after, hbefore, hafter, rfl⟩ := h
  have hnot {white : Text} (hwhite : IsWhite white) : s ∉ white := fun hmem => by simp [hwhite s hmem] at hs
  simp [hnot hbefore, hnot hafter]

/-- Nothing is dropped from a text that does not begin with white space. -/
theorem dropWhile_of_first (h : ∀ s ∈ text.head?, isBlank s = false) : text.dropWhile isBlank = text := by
  cases text with
  | nil => rfl
  | cons s rest => simp [h s rfl]

/-- Trimming takes away the white space around a text that has none at its ends. -/
theorem IsPadded.trim_eq (h : IsPadded core text) (hcore : IsTrimmed core) : trim text = core := by
  obtain ⟨before, after, hbefore, hafter, rfl⟩ := h
  rw [trim, trimBoth, List.append_assoc, List.dropWhile_append_of_pos hbefore]
  by_cases hempty : core = []
  · subst hempty
    rw [List.nil_append, List.dropWhile_eq_nil_iff.mpr hafter]
    rfl
  · have hfirst : ∀ s ∈ (core ++ after).head?, isBlank s = false := by
      rw [List.head?_append_of_ne_nil core hempty]
      exact hcore.first
    have hlast : ∀ s ∈ core.reverse.head?, isBlank s = false := by
      rw [List.head?_reverse]
      exact hcore.last
    rw [dropWhile_of_first hfirst, List.reverse_append,
      List.dropWhile_append_of_pos fun s hs => hafter s (List.mem_reverse.mp hs), dropWhile_of_first hlast,
      List.reverse_reverse]

/-- What is trimmed was the text with white space around it. -/
theorem isPadded_trim (text : Text) : IsPadded (trim text) text := by
  refine ⟨text.takeWhile isBlank, (text.dropWhile isBlank).rtakeWhile isBlank,
    fun s => List.mem_takeWhile_imp, fun s => List.mem_rtakeWhile_imp, ?_⟩
  change text = _ ++ (text.dropWhile isBlank).rdropWhile isBlank ++ _
  rw [List.append_assoc, List.rdropWhile_append_rtakeWhile, List.takeWhile_append_dropWhile]

/-- Trimming leaves no white space at the ends. -/
theorem isTrimmed_trim (text : Text) : IsTrimmed (trim text) := by
  change IsTrimmed ((text.dropWhile isBlank).rdropWhile isBlank)
  refine ⟨fun s hs => ?_, fun s hs => ?_⟩
  · obtain ⟨after, hafter⟩ := List.rdropWhile_prefix isBlank (l := text.dropWhile isBlank)
    have hhead : (text.dropWhile isBlank).head? = some s := by
      rw [← hafter, List.head?_append, hs]
      rfl
    have hnot := List.head?_dropWhile_not isBlank text
    rwa [hhead] at hnot
  · have hne : (text.dropWhile isBlank).rdropWhile isBlank ≠ [] := by
      rintro hempty
      simp [hempty] at hs
    have hnot := List.rdropWhile_last_not isBlank _ hne
    rw [List.getLast?_eq_some_getLast hne] at hs
    obtain rfl := Option.some.inj hs
    simpa using hnot

/-- Trimming gives a text exactly if it has no white space at its ends and is what the white space stands
around. -/
theorem trim_eq_iff : trim text = core ↔ IsTrimmed core ∧ IsPadded core text := by
  constructor
  · rintro rfl
    exact ⟨isTrimmed_trim text, isPadded_trim text⟩
  · rintro ⟨hcore, h⟩
    exact h.trim_eq hcore

/-- White space around a text makes no difference to trimming. -/
theorem IsPadded.trim_eq_trim (h : IsPadded core text) : trim text = trim core := by
  obtain ⟨before, after, hbefore, hafter, rfl⟩ := h
  obtain ⟨start, rest, hstart, hrest, hcore⟩ := isPadded_trim core
  apply trim_eq_iff.mpr
  refine ⟨isTrimmed_trim core, before ++ start, rest ++ after, ?_, ?_, ?_⟩
  · exact List.forall_mem_append.mpr ⟨hbefore, hstart⟩
  · exact List.forall_mem_append.mpr ⟨hrest, hafter⟩
  · nth_rewrite 1 [hcore]
    simp only [List.append_assoc]

/-- What comes first after the white space at the start of a text comes first when it is trimmed. -/
theorem head?_trim (text : Text) : (trim text).head? = (text.dropWhile isBlank).head? := by
  obtain ⟨before, after, hbefore, hafter, hparts⟩ := isPadded_trim text
  nth_rewrite 2 [hparts]
  rw [List.append_assoc, List.dropWhile_append_of_pos hbefore]
  by_cases hempty : trim text = []
  · rw [hempty, List.nil_append, List.dropWhile_eq_nil_iff.mpr hafter]
  · have hhead : (trim text ++ after).head? = (trim text).head? := List.head?_append_of_ne_nil _ hempty
    rw [dropWhile_of_first (by rw [hhead]; exact (isTrimmed_trim text).first), hhead]

/-- White space at the start of a text is around it. -/
theorem isPadded_dropWhile (text : Text) : IsPadded (text.dropWhile isBlank) text :=
  ⟨text.takeWhile isBlank, [], fun _ => List.mem_takeWhile_imp, nofun, by simp⟩

/-- White space at the end of a text is around it. -/
theorem isPadded_rdropWhile (text : Text) : IsPadded (text.rdropWhile isBlank) text :=
  ⟨[], text.rtakeWhile isBlank, nofun, fun _ => List.mem_rtakeWhile_imp,
    by simp [List.rdropWhile_append_rtakeWhile]⟩

/-- Around a symbol that is no white space, a text is trimmed on both sides of it. -/
theorem trim_append_cons (hs : isBlank s = false) (left right : Text) :
    trim (left ++ s :: right) = left.dropWhile isBlank ++ s :: right.rdropWhile isBlank := by
  apply trim_eq_iff.mpr
  constructor
  · refine ⟨fun first hfirst => ?_, fun last hlast => ?_⟩
    · cases hleft : left.dropWhile isBlank with
      | nil =>
        rw [hleft, List.nil_append] at hfirst
        obtain rfl := Option.some.inj hfirst
        exact hs
      | cons t rest =>
        have hnot := List.head?_dropWhile_not isBlank left
        rw [hleft] at hfirst hnot
        obtain rfl := Option.some.inj hfirst
        exact hnot
    · by_cases hright : right.rdropWhile isBlank = []
      · rw [hright, List.getLast?_concat] at hlast
        obtain rfl := Option.some.inj hlast
        exact hs
      · have hnot := List.rdropWhile_last_not isBlank right hright
        rw [List.getLast?_append_of_ne_nil _ (List.cons_ne_nil _ _), List.getLast?_cons_of_ne_nil hright,
          List.getLast?_eq_some_getLast hright] at hlast
        obtain rfl := Option.some.inj hlast
        simpa using hnot
  · refine ⟨left.takeWhile isBlank, right.rtakeWhile isBlank, fun _ => List.mem_takeWhile_imp,
      fun _ => List.mem_rtakeWhile_imp, ?_⟩
    have hright := List.rdropWhile_append_rtakeWhile (p := isBlank) (l := right)
    rw [← List.append_assoc, List.takeWhile_append_dropWhile, List.append_assoc, List.cons_append, hright]

/-- A text is cut at the first occurrence of a symbol. -/
theorem cut?_append_cons (h : sep ∉ core) (rest : Text) : cut? sep (core ++ sep :: rest) = some (core, rest) := by
  induction core with
  | nil => simp [cut?]
  | cons t core ih =>
    obtain ⟨ht, hcore⟩ := not_or.mp (mt List.mem_cons.mpr h)
    rw [List.cons_append, cut?, if_neg (Ne.symm ht), ih hcore, Option.map_some]

/-- A text without the symbol is not cut at it. -/
theorem cut?_of_not_mem (h : sep ∉ text) : cut? sep text = none := by
  induction text with
  | nil => rfl
  | cons t rest ih =>
    obtain ⟨ht, hrest⟩ := not_or.mp (mt List.mem_cons.mpr h)
    rw [cut?, if_neg (Ne.symm ht), ih hrest, Option.map_none]

end TestPlan.Text
