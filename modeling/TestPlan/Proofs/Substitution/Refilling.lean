import Mathlib.Data.List.Basic
import TestPlan.Proofs.Substitution.Closed

/-!
# Filling again and filling on

A template that is filled with clean texts is left as it is when it is filled again, and the same names are
reported (`Template.complete_of_complete`): what stands for a placeholder that is bound has symbols only, and all
other placeholders are the ones that were left. A template behind a closed one is filled as if it stood alone.
Both laws need what they ask for (`Template.filled_again_and_on`): an empty value may bring braces together, and
an open brace may reach into what follows.
-/

namespace TestPlan

/-- Every text that a scope binds to a name is clean. A value that cannot be written has no text. -/
def Scope.BindsClean (scope : Scope) : Prop :=
  ∀ name value, scope.value? name = some value → value.isWritable = true → value.parameterText.IsClean

namespace Template

variable {ε : Type} {fault : WriteFault → ε} {scope : Scope} {text result : Text}

/-- The settled pieces of a piece report what the piece reports. -/
theorem Piece.unbound?_settle (scope : Scope) (piece : Piece) :
    (piece.settle scope).filterMap (Piece.unbound? scope) = (piece.unbound? scope).toList := by
  cases piece with
  | symbol s => rfl
  | placeholder body =>
    rw [Piece.settle, Piece.unbound?]
    cases hlookup : scope.lookup (nameOf body) with
    | some value => simp [Piece.unbound?]
    | none => simp [Piece.unbound?, hlookup]

/-- Filling a filled template again leaves it as it is, and reports the same. -/
theorem complete_of_complete (hclean : FillsCleanly scope text)
    (h : (complete fault scope text).outcome = .ok result) :
    complete fault scope result = ⟨(complete fault scope text).log, .ok result⟩ := by
  obtain rfl := complete_eq_filled h
  have hagain : (complete fault scope (filled scope text)).outcome = .ok (filled scope text) :=
    complete_of_unbound fault fun body hbody => (placeholder_mem_pieces_filled hclean hbody).2
  have hreported : (pieces (filled scope text)).filterMap (Piece.unbound? scope) =
      (pieces text).filterMap (Piece.unbound? scope) := by
    rw [pieces_filled hclean, List.filterMap_flatMap, List.filterMap_eq_flatMap_toList (Piece.unbound? scope)]
    simp only [Piece.unbound?_settle]
  ext1
  · rw [log_of_complete hagain, log_of_complete h, hreported]
  · exact hagain

/-- The values that a template is filled with are clean where the scope binds clean texts. -/
theorem fillsCleanly_of_bindsClean (hclean : scope.BindsClean)
    (h : ∀ body, .placeholder body ∈ pieces text → scope.isWritable (nameOf body) = true) :
    FillsCleanly scope text := by
  intro body hbody bound hbound
  have hwritable := h body hbody
  obtain ⟨value, hvalue, rfl⟩ := Option.map_eq_some_iff.mp hbound
  rw [Scope.isWritable, hvalue, Option.all_some] at hwritable
  exact hclean (nameOf body) value hvalue hwritable

/-- What a template is filled with is not changed by filling it again, and the same names are reported, where all
texts that are bound are clean. A closed template and one behind it are filled one after the other, with one text
after the other and one log after the other. And a template is filled unless a value that it asks for cannot be
written. -/
theorem filled_again_and_on (fault : WriteFault → ε) (scope : Scope) :
    (scope.BindsClean → ∀ text result, (complete fault scope text).outcome = .ok result →
      complete fault scope result = ⟨(complete fault scope text).log, .ok result⟩) ∧
    (∀ first second, Text.IsClosed first →
      complete fault scope (first ++ second) = (do
        let front ← complete fault scope first
        let back ← complete fault scope second
        return front ++ back) ∧
      ∀ front back, (complete fault scope first).outcome = .ok front →
        (complete fault scope second).outcome = .ok back →
        complete fault scope (first ++ second) =
          ⟨(complete fault scope first).log ++ (complete fault scope second).log, .ok (front ++ back)⟩) ∧
    ∀ text, (∃ result, (complete fault scope text).outcome = .ok result) ↔
      ∀ body, .placeholder body ∈ pieces text → scope.isWritable (nameOf body) = true := by
  refine ⟨fun hclean text result h => ?_, fun first second hclosed => ?_, fun text => ?_⟩
  · have hwritable := forall_isWritable_iff.mp (complete_eq_ok_iff.mp h).1
    exact complete_of_complete (fillsCleanly_of_bindsClean hclean hwritable) h
  · have happend := complete_append fault scope hclosed second
    refine ⟨happend, fun front back hfront hback => ?_⟩
    rw [happend, Run.bind_of_ok hfront, Run.bind_of_ok hback]
    simp
  · simp only [complete_eq_ok_iff, exists_and_left, exists_eq, and_true, forall_isWritable_iff]

/-- Braces right behind a placeholder that is bound, and at the place where two templates meet, open none. -/
theorem filled_again_and_on_of_braces :
    let scope : Scope := ⟨[(.text "A", .text "x")], []⟩
    let first : Text := "\x7b\x7bA\x7d\x7d\x7d"
    let second : Text := "\x7d\x7b\x7b\x7bB\x7d\x7d"
    let whole : Text := "x\x7d\x7d\x7b\x7b\x7bB\x7d\x7d"
    scope.BindsClean ∧ Text.IsClosed first ∧
      complete id scope (first ++ second) = ⟨[unboundWarning "\x7bB"], .ok whole⟩ ∧
      complete id scope whole = ⟨[unboundWarning "\x7bB"], .ok whole⟩ := by
  intro scope first second whole
  have hclean : scope.BindsClean := by
    intro name value hvalue hwritable
    simp only [Scope.value?, Entries.find?, scope] at hvalue
    split at hvalue
    · obtain rfl : .text "x" = value := by simpa using hvalue
      decide
    · simp at hvalue
  have hclosed : Text.IsClosed first := .inr ⟨"\x7b\x7bA", "\x7d", rfl, by decide⟩
  have hfront : (complete id scope first).outcome = .ok "x\x7d" := complete_eq_ok_iff.mpr (by decide +kernel)
  have hback : (complete id scope second).outcome = .ok second := complete_eq_ok_iff.mpr (by decide +kernel)
  have hlog : (complete id scope first).log ++ (complete id scope second).log = [unboundWarning "\x7bB"] := by
    decide +kernel
  obtain ⟨hagain, hon, -⟩ := filled_again_and_on id scope
  have hwhole : complete id scope (first ++ second) = ⟨[unboundWarning "\x7bB"], .ok whole⟩ := by
    have happend := (hon first second hclosed).2 _ _ hfront hback
    rw [hlog] at happend
    exact happend
  have hsettled := hagain hclean (first ++ second) whole (congrArg Run.outcome hwhole)
  rw [hwhole] at hsettled
  exact ⟨hclean, hclosed, hwhole, hsettled⟩

end Template
end TestPlan
