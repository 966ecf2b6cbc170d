import Mathlib.Data.List.Infix
import TestPlan.Proofs.Text.Pieces

/-!
# Words in texts

Cutting a text at a word finds the first place where the word occurs (`Text.cutWord?_eq_some_iff`), and fails
only if there is none. A word does not reach across a symbol that is not in it, so an occurrence behind such a
symbol has nothing to do with what is before (`Text.cutWord?_append_cons`).
-/

namespace TestPlan.Text

variable {word text left right before after : Text} {s : Symbol} {class? : Symbol → Bool}

/-- What is before and after the first occurrence of a word in a text. -/
structure IsCut (word text before after : Text) : Prop where
  parts : text = before ++ word ++ after
  first : ∀ left right, text = left ++ word ++ right → before.length ≤ left.length

/-- A text has one first occurrence of a word at most. -/
theorem IsCut.unique (h : IsCut word text before after) (h' : IsCut word text left right) :
    before = left ∧ after = right := by
  have hlength : before.length = left.length :=
    Nat.le_antisymm (h.first left right h'.parts) (h'.first before after h.parts)
  have hparts := h.parts.symm.trans h'.parts
  rw [List.append_assoc, List.append_assoc] at hparts
  obtain ⟨hbefore, hrest⟩ := List.append_inj hparts hlength
  exact ⟨hbefore, List.append_cancel_left hrest⟩

/-- A text is not cut exactly if the word does not occur in it. -/
theorem cutWord?_eq_none_iff : cutWord? word text = none ↔ ¬ word <:+: text := by
  induction text with
  | nil => simp [cutWord?]
  | cons s rest ih =>
    rw [cutWord?, List.infix_cons_iff, not_or, ← ih, ← List.isPrefixOf_iff_prefix]
    split
    next hstart => simp [hstart]
    next hstart => simp [hstart]

/-- What is cut at a word is the text before its first occurrence and the text after it. -/
theorem isCut_of_cutWord? (h : cutWord? word text = some (before, after)) : IsCut word text before after := by
  induction text generalizing before with
  | nil =>
    obtain ⟨rfl, rfl, rfl⟩ : word = [] ∧ [] = before ∧ [] = after := by simpa [cutWord?] using h
    exact ⟨rfl, fun _ _ _ => Nat.zero_le _⟩
  | cons s rest ih =>
    rw [cutWord?] at h
    split at h
    next hstart =>
      obtain ⟨rfl, rfl⟩ : [] = before ∧ (s :: rest).drop word.length = after := by simpa using h
      exact ⟨List.prefix_append_drop (List.isPrefixOf_iff_prefix.mp hstart), fun _ _ _ => Nat.zero_le _⟩
    next hstart =>
      obtain ⟨⟨shorter, _⟩, hcut, heq⟩ := Option.map_eq_some_iff.mp h
      obtain ⟨rfl, rfl⟩ := Prod.mk.inj heq
      have hrest := ih hcut
      refine ⟨congrArg (List.cons s) hrest.parts, fun left right hparts => ?_⟩
      cases left with
      | nil => exact absurd (List.isPrefixOf_iff_prefix.mpr ⟨right, hparts.symm⟩) hstart
      | cons t left =>
        have hle := hrest.first left right (List.cons.inj hparts).2
        simp only [List.length_cons]
        omega

/-- A text is cut at the first occurrence of the word. -/
theorem cutWord?_eq_some_iff : cutWord? word text = some (before, after) ↔ IsCut word text before after := by
  constructor
  · exact isCut_of_cutWord?
  · intro h
    cases hcut : cutWord? word text with
    | none =>
      have hwithin : word <:+: text := ⟨before, after, h.parts.symm⟩
      exact absurd hwithin (cutWord?_eq_none_iff.mp hcut)
    | some found =>
      obtain ⟨hbefore, hafter⟩ := (isCut_of_cutWord? hcut).unique h
      rw [← hbefore, ← hafter]

/-- A word at the start of a text does not reach across a symbol that is not in it. -/
theorem prefix_of_prefix_append_cons (left : Text) (hs : s ∉ word) (h : word <+: left ++ s :: right) :
    word <+: left := by
  by_cases hle : word.length ≤ left.length
  · exact List.prefix_of_prefix_length_le h (List.prefix_append left _) hle
  · have hreach : left ++ [s] <+: word := by
      apply List.prefix_of_prefix_length_le _ h
      · simp only [List.length_append, List.length_singleton]
        omega
      · exact ⟨right, by simp⟩
    exact absurd (hreach.subset (by simp)) hs

/-- A word does not reach across a symbol that is not in it. -/
theorem infix_append_cons_iff (left : Text) (hs : s ∉ word) :
    word <:+: left ++ s :: right ↔ word <:+: left ∨ word <:+: right := by
  constructor
  · intro h
    induction left with
    | nil =>
      rcases List.infix_cons_iff.mp h with hstart | hwithin
      · exact .inl (prefix_of_prefix_append_cons [] hs hstart).isInfix
      · exact .inr hwithin
    | cons t left ih =>
      rcases List.infix_cons_iff.mp h with hstart | hwithin
      · exact .inl (prefix_of_prefix_append_cons (t :: left) hs hstart).isInfix
      · exact (ih hwithin).imp_left List.infix_cons
  · intro h
    apply h.elim
    · exact fun hleft => hleft.trans (List.prefix_append left _).isInfix
    · exact fun hright => hright.trans ⟨left ++ [s], [], by simp⟩

/-- Where a word does not occur before a symbol that is not in it, a text is cut behind the symbol. -/
theorem cutWord?_append_cons (hs : s ∉ word) (hword : word ≠ []) (hleft : ¬ word <:+: left) :
    cutWord? word (left ++ s :: right) =
      (cutWord? word right).map fun (before, after) => (left ++ s :: before, after) := by
  have hskip (t : Symbol) (more : Text) (h : ¬ word <+: t :: more) :
      cutWord? word (t :: more) = (cutWord? word more).map fun (before, after) => (t :: before, after) :=
    if_neg (mt List.isPrefixOf_iff_prefix.mp h)
  induction left with
  | nil =>
    exact hskip s right fun h => hword (List.prefix_nil.mp (prefix_of_prefix_append_cons [] hs h))
  | cons t left ih =>
    have hstart : ¬ word <+: t :: (left ++ s :: right) := fun h =>
      hleft (prefix_of_prefix_append_cons (t :: left) hs h).isInfix
    have hrest := ih fun h => hleft (List.infix_cons h)
    rw [List.cons_append, hskip t _ hstart, hrest, Option.map_map]
    rfl

/-- What is left after trimming is part of the text. -/
theorem trimBoth_isInfix (class? : Symbol → Bool) (text : Text) : trimBoth class? text <:+: text := by
  have hend : (text.dropWhile class?).rdropWhile class? <+: text.dropWhile class? :=
    List.rdropWhile_prefix class? _
  exact hend.isInfix.trans (List.dropWhile_suffix class?).isInfix

/-- Dropping symbols that are not in a word keeps the word. -/
theorem infix_dropWhile (hword : ∀ s ∈ word, class? s = false) (h : word <:+: text) :
    word <:+: text.dropWhile class? := by
  induction text with
  | nil => exact h
  | cons t rest ih =>
    by_cases ht : class? t = true
    · rw [List.dropWhile_cons_of_pos ht]
      rcases List.infix_cons_iff.mp h with hstart | hwithin
      · have ht' : t ∉ word := fun hmem => by simp [hword t hmem] at ht
        have hnil := prefix_of_prefix_append_cons [] ht' hstart
        exact hnil.isInfix.trans List.nil_infix
      · exact ih hwithin
    · rwa [List.dropWhile_cons_of_neg ht]

/-- Trimming does not touch a word of symbols that are not trimmed. -/
theorem infix_trimBoth (hword : ∀ s ∈ word, class? s = false) (h : word <:+: text) :
    word <:+: trimBoth class? text := by
  have hstart := infix_dropWhile hword h
  have hend : word.reverse <:+: (text.dropWhile class?).reverse.dropWhile class? := by
    apply infix_dropWhile
    · exact fun s hs => hword s (List.mem_reverse.mp hs)
    · exact List.reverse_infix.mpr hstart
  simpa [trimBoth] using List.reverse_infix.mpr hend

end TestPlan.Text
