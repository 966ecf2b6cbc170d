import Mathlib.Data.List.TakeWhile
import TestPlan.Proofs.Substitution

/-!
# Closed templates

A template is closed when no opening brace comes after its last closing braces. Whether a placeholder begins
within a closed template is settled there: what begins in it meets closing braces before the template ends. So
what is written behind a closed template is read (`Template.pieces_append_of_isClosed`) and filled
(`Template.complete_append`) as if it stood alone.
-/

namespace TestPlan

/-- A text without an opening brace after its last two closing ones, or without opening braces at all. -/
def Text.IsClosed (text : Text) : Prop :=
  .char '{' ∉ text ∨ ∃ before after, text = before ++ .char '}' :: .char '}' :: after ∧ .char '{' ∉ after

namespace Text.IsClosed

variable {s : Symbol} {text rest : Text}

/-- A text without an opening brace is closed. -/
theorem of_not_mem (h : .char '{' ∉ text) : text.IsClosed := .inl h

/-- The rest of a closed text is closed. -/
theorem of_cons (h : IsClosed (s :: text)) : IsClosed text := by
  rcases h with hnone | ⟨before, after, hparts, hafter⟩
  · exact .inl fun hmem => hnone (List.mem_cons_of_mem s hmem)
  · cases before with
    | nil =>
      obtain ⟨-, rfl⟩ := List.cons.inj hparts
      exact .inl (by simpa using hafter)
    | cons t before => exact .inr ⟨before, after, (List.cons.inj hparts).2, hafter⟩

/-- Every end of a closed text is closed. -/
theorem of_suffix (h : text.IsClosed) (hrest : rest <:+ text) : rest.IsClosed := by
  induction text with
  | nil => rwa [List.suffix_nil.mp hrest]
  | cons s text ih =>
    rcases List.suffix_cons_iff.mp hrest with rfl | hrest
    · exact h
    · exact ih h.of_cons hrest

/-- Closing braces follow every opening brace of a closed text. -/
theorem closes (h : IsClosed (.char '{' :: text)) :
    ∃ before after, text = before ++ .char '}' :: .char '}' :: after := by
  rcases h with hnone | ⟨before, after, hparts, -⟩
  · exact absurd List.mem_cons_self hnone
  · cases before with
    | nil => exact absurd (List.cons.inj hparts).1 (by decide)
    | cons t before => exact ⟨before, after, (List.cons.inj hparts).2⟩

end Text.IsClosed

namespace Template

variable {scope : Scope} {text other body after : Text}

/-- Where closing braces follow in a text, they are found there, whatever comes behind the text. -/
theorem suffix_of_closes {before more : Text} (hclosing : .char '}' ∉ body)
    (h : before ++ .char '}' :: .char '}' :: more ++ other = body ++ .char '}' :: .char '}' :: after) :
    other <:+ after := by
  have hlength : body.length ≤ before.length := by
    by_contra hlt
    have hbefore : before ++ [.char '}'] <+: before ++ .char '}' :: .char '}' :: more ++ other := by
      simp [List.append_assoc]
    have hbody : body <+: before ++ .char '}' :: .char '}' :: more ++ other := ⟨_, h.symm⟩
    have hle : (before ++ [Symbol.char '}']).length ≤ body.length := by
      simp only [List.length_append, List.length_singleton]
      omega
    exact hclosing ((List.prefix_of_prefix_length_le hbefore hbody hle).subset (by simp))
  have hafter : after <:+ before ++ .char '}' :: .char '}' :: more ++ other :=
    ⟨body ++ [.char '}', .char '}'], by simp [h]⟩
  apply List.suffix_of_suffix_length_le (List.suffix_append _ other) hafter
  have hlengths := congrArg List.length h
  simp only [List.length_append, List.length_cons] at hlengths
  omega

/-- A placeholder at the start of a closed text is the same whatever comes behind the text. -/
theorem placeholder?_append (h : text.IsClosed) (hne : text ≠ []) (other : Text) :
    placeholder? (text ++ other) = (placeholder? text).map fun (body, after) => (body, after ++ other) := by
  cases hplaceholder : placeholder? text with
  | some found =>
    obtain ⟨body, after⟩ := found
    obtain ⟨rfl, hbody, hclosing⟩ := placeholder?_eq_some_iff.mp hplaceholder
    exact placeholder?_eq_some_iff.mpr ⟨List.append_assoc _ _ _, hbody, hclosing⟩
  | none =>
    rw [placeholder?_eq_none_iff] at hplaceholder
    rw [Option.map_none, placeholder?_eq_none_iff]
    rintro ⟨body, after, ⟨hbody, hclosing⟩, hsource⟩
    obtain ⟨s, rest, rfl⟩ := List.exists_cons_of_ne_nil hne
    obtain ⟨rfl, hrest⟩ := List.cons.inj hsource
    obtain ⟨before, more, rfl⟩ := h.closes
    have hcloses : before ++ .char '}' :: .char '}' :: more ++ other =
        (.char '{' :: body) ++ .char '}' :: .char '}' :: after := by simpa using hrest
    obtain ⟨mine, rfl⟩ := suffix_of_closes (by simpa using hclosing) hcloses
    have hboth : before ++ .char '}' :: .char '}' :: more ++ other =
        ((.char '{' :: body) ++ .char '}' :: .char '}' :: mine) ++ other := by simpa using hcloses
    have hown := List.append_cancel_right hboth
    exact hplaceholder ⟨body, mine, ⟨hbody, hclosing⟩, by simp [Piece.source, hown]⟩

/-- A closed template and what comes behind it are read one after the other. -/
theorem pieces_append_of_isClosed (h : text.IsClosed) (other : Text) :
    pieces (text ++ other) = pieces text ++ pieces other := by
  fun_induction pieces text with
  | case1 text body after hplaceholder _ ih =>
    have hne : text ≠ [] := by
      rintro rfl
      simp [placeholder?] at hplaceholder
    have hwhole := placeholder?_append h hne other
    rw [hplaceholder, Option.map_some] at hwhole
    have hafter : after <:+ text := ⟨_, (placeholder?_source hplaceholder).symm⟩
    rw [pieces_of_placeholder hwhole, ih (h.of_suffix hafter), List.cons_append]
  | case2 => rfl
  | case3 s rest hplaceholder ih =>
    have hwhole := placeholder?_append h (List.cons_ne_nil s rest) other
    rw [hplaceholder, Option.map_none, List.cons_append] at hwhole
    rw [List.cons_append, pieces_of_symbol hwhole, ih h.of_cons, List.cons_append]

variable {ε : Type}

/-- Filling a closed template and what comes behind it is filling one after the other. -/
theorem complete_append (fault : WriteFault → ε) (scope : Scope) (h : text.IsClosed) (other : Text) :
    complete fault scope (text ++ other) = (do
      let first ← complete fault scope text
      let second ← complete fault scope other
      return first ++ second) := by
  simp only [complete, fill, pieces_append_of_isClosed h, List.all_append]
  by_cases hfirst : (pieces text).all (Piece.isWritable scope) = true
  · have hall := List.all_eq_true.mp hfirst
    by_cases hsecond : (pieces other).all (Piece.isWritable scope) = true
    · simp [hfirst, hsecond, Run.bind_of_ok]
    · simp [hfirst, hsecond, Run.bind_of_ok, Run.bind_of_error, List.takeWhile_append_of_pos hall]
  · have hstops : (pieces text ++ pieces other).takeWhile (Piece.isWritable scope) =
        (pieces text).takeWhile (Piece.isWritable scope) := by
      rw [List.takeWhile_append, if_neg]
      intro hlength
      have hpart := List.takeWhile_prefix (Piece.isWritable scope) (l := pieces text)
      have hself := hpart.eq_of_length hlength
      exact hfirst (List.all_eq_true.mpr (List.takeWhile_eq_self_iff.mp hself))
    simp [hfirst, hstops, Run.bind_of_error]

/-- A closed template and what comes behind it are filled with one text after the other. -/
theorem complete_append_eq_ok {fault : WriteFault → ε} {first second : Text} (h : text.IsClosed)
    (hfirst : (complete fault scope text).outcome = .ok first)
    (hsecond : (complete fault scope other).outcome = .ok second) :
    (complete fault scope (text ++ other)).outcome = .ok (first ++ second) := by
  rw [complete_append fault scope h, Run.bind_of_ok hfirst, Run.bind_of_ok hsecond]
  rfl

/-- A placeholder is closed. -/
theorem source_isClosed (body : Text) : (Piece.placeholder body).source.IsClosed :=
  .inr ⟨.char '{' :: .char '{' :: body, [], by simp [Piece.source], List.not_mem_nil⟩

end Template
end TestPlan
