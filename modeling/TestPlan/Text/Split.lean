import TestPlan.Text.Symbol

/-!
# Splitting texts

Cutting a text at a separator: at every occurrence of one symbol, at the first occurrence of one symbol,
and at the first occurrence of a word. `join_split` says that splitting loses nothing.
-/

namespace TestPlan.Text

/-- The pieces between the occurrences of a symbol; there is always at least one piece. -/
def split (sep : Symbol) : Text → List Text
  | [] => [[]]
  | s :: rest =>
    if s = sep then [] :: split sep rest
    else match split sep rest with
      | [] => [[s]]
      | piece :: others => (s :: piece) :: others

/-- The pieces of `split` written one after another with the separator between them. -/
def join (sep : Symbol) : List Text → Text
  | [] => []
  | [piece] => piece
  | piece :: others => piece ++ sep :: join sep others

/-- What stands before and after the first occurrence of a symbol. -/
def cut? (sep : Symbol) : Text → Option (Text × Text)
  | [] => none
  | s :: rest =>
    if s = sep then some ([], rest)
    else (cut? sep rest).map fun (before, after) => (s :: before, after)

/-- What stands before and after the first occurrence of a word. -/
def cutWord? (word : Text) : Text → Option (Text × Text)
  | [] => if word.isEmpty then some ([], []) else none
  | s :: rest =>
    if word.isPrefixOf (s :: rest) then some ([], (s :: rest).drop word.length)
    else (cutWord? word rest).map fun (before, after) => (s :: before, after)

/-- A text has at least one part. -/
theorem split_ne_nil (sep : Symbol) (text : Text) : split sep text ≠ [] := by
  cases text with
  | nil => simp [split]
  | cons s rest =>
    rw [split]
    split
    · simp
    · split <;> simp

/-- Joining the pieces gives the text back. -/
theorem join_split (sep : Symbol) (text : Text) : join sep (split sep text) = text := by
  induction text with
  | nil => rfl
  | cons s rest ih =>
    rw [split]
    split
    next h =>
      obtain ⟨piece, others, hp⟩ := List.exists_cons_of_ne_nil (split_ne_nil sep rest)
      rw [hp] at ih ⊢
      simp [join, ih, h]
    next h =>
      obtain ⟨piece, others, hp⟩ := List.exists_cons_of_ne_nil (split_ne_nil sep rest)
      rw [hp] at ih ⊢
      cases others with
      | nil => simpa [join] using ih
      | cons q qs => simpa [join] using ih

end TestPlan.Text
