import TestPlan.Proofs.Condition.Operands

/-!
# Conditions with names that are not bound

A placeholder whose name is not bound stays in the filled condition as it is written, and is read like any other
text. Such a condition is neither empty nor the word for falsity, so it does not hold only if it cannot be filled
or is a comparison that fails (`Condition.unresolved_meaning`): comparing what is left for equality with something
else fails, but comparing it for difference does not, and nor does leaving it without a comparison.
-/

namespace TestPlan

variable {scope : Scope} {condition text word body : Text}

/-- A placeholder that is not bound is in the filled template as it is written. -/
theorem Template.source_infix_filled (hmem : .placeholder body ∈ pieces text)
    (hunbound : scope.value? (nameOf body) = none) : (Piece.placeholder body).source <:+: filled scope text := by
  have hfill : (Piece.placeholder body).fill scope = (Piece.placeholder body).source := by
    simp [Piece.fill, Scope.lookup, hunbound]
  obtain ⟨before, after, hpieces⟩ := List.append_of_mem hmem
  rw [filled, hpieces, List.flatMap_append, List.flatMap_cons, hfill, ← List.append_assoc]
  exact List.infix_append _ _ _

namespace Condition

/-- A placeholder of the condition has a name that is bound to nothing. -/
def IsUnresolved (scope : Scope) (condition : Text) : Prop :=
  ∃ body, .placeholder body ∈ Template.pieces condition ∧ scope.value? (Template.nameOf body) = none

/-- A filled condition is a comparison that fails. -/
inductive IsRefuted : Text → Prop
  /-- it compares for difference, and the operands are equal -/
  | differ {text left right : Text} (h : Compares "!=" text left right) (heq : left = right) : IsRefuted text
  /-- it compares for equality only, and the operands differ -/
  | equal {text left right : Text} (hnone : ¬ ("!=" : Text) <:+: text) (h : Compares "==" text left right)
      (hne : left ≠ right) : IsRefuted text

/-- A filled condition that is neither empty nor the word for falsity only fails to hold as a comparison. -/
theorem holds_eq_false_iff (hfalse : text ≠ "false") (hne : text ≠ []) : holds text = false ↔ IsRefuted text := by
  constructor
  · intro h
    cases hdiffer : operands? "!=" text with
    | some found =>
      rw [holds_of_differ hdiffer, bne_eq_false_iff_eq] at h
      exact .differ (operands?_eq_some_iff.mp hdiffer) h
    | none =>
      cases hequal : operands? "==" text with
      | some found =>
        rw [holds_of_equal hdiffer hequal, Bool.eq_false_iff, Ne, areEqual_iff] at h
        exact .equal (operands?_eq_none_iff.mp hdiffer) (operands?_eq_some_iff.mp hequal) h
      | none =>
        rw [holds_of_truth hdiffer hequal, isTruth_iff.mpr ⟨hfalse, hne⟩] at h
        contradiction
  · intro h
    cases h with
    | differ h heq => rwa [holds_of_differ (operands?_eq_some_iff.mpr h), bne_eq_false_iff_eq]
    | equal hnone h hne =>
      rwa [holds_of_equal (operands?_eq_none_iff.mpr hnone) (operands?_eq_some_iff.mpr h), Bool.eq_false_iff, Ne,
        areEqual_iff]

/-- An operand is part of the text around it. -/
theorem operand_isInfix (text : Text) : operand text <:+: text :=
  (Text.trimBoth_isInfix isQuote (Text.trim text)).trans (Text.trimBoth_isInfix Text.isBlank text)

/-- A word without white space and quotes is in the operand if it is in the text. -/
theorem infix_operand (hblank : ∀ s ∈ word, Text.isBlank s = false) (hquote : ∀ s ∈ word, isQuote s = false)
    (h : word <:+: text) : word <:+: operand text :=
  Text.infix_trimBoth hquote (Text.infix_trimBoth hblank h)

/-- What an unresolved condition is filled with has opening braces. -/
theorem IsUnresolved.opens (h : IsUnresolved scope condition) :
    ("\x7b\x7b" : Text) <:+: Template.filled scope condition := by
  obtain ⟨body, hmem, hunbound⟩ := h
  have hopens : ("\x7b\x7b" : Text) <+: (Template.Piece.placeholder body).source :=
    List.prefix_append _ (body ++ [.char '}', .char '}'])
  exact hopens.isInfix.trans (Template.source_infix_filled hmem hunbound)

/-- An unresolved condition is not empty: it has a placeholder in it. -/
theorem IsUnresolved.ne_nil (h : IsUnresolved scope condition) : condition ≠ [] := by
  rintro rfl
  obtain ⟨body, hmem, -⟩ := h
  rw [Template.pieces_nil] at hmem
  exact absurd hmem List.not_mem_nil

/-- The operand that is left of an unresolved condition is not that of a text without opening braces. -/
theorem IsUnresolved.operand_ne (h : IsUnresolved scope condition) {other : Text}
    (hother : ¬ ("\x7b\x7b" : Text) <:+: other) : operand (Template.filled scope condition) ≠ operand other := by
  intro heq
  have hopens := infix_operand (by decide) (by decide) h.opens
  rw [heq] at hopens
  exact hother (hopens.trans (operand_isInfix other))

variable {ε : Type}

/-- A condition with a name that is not bound does not hold exactly if it cannot be filled or is a comparison that
fails. Compared for equality with a text without opening braces it fails, and compared for difference it holds, on
either side. -/
theorem unresolved_meaning (fault : WriteFault → ε) (h : IsUnresolved scope condition) :
    ((evaluate fault scope (.text condition)).outcome = .ok false ↔
      (∀ text, (Template.complete id scope condition).outcome ≠ .ok text) ∨
        IsRefuted (Template.filled scope condition)) ∧
    ∀ text other otherText, IsSide scope condition text → IsSide scope other otherText → HasNoOperator text →
      HasNoOperator otherText → ¬ ("\x7b\x7b" : Text) <:+: otherText →
      (evaluate fault scope (.text (condition ++ " == " ++ other))).outcome = .ok false ∧
      (evaluate fault scope (.text (other ++ " == " ++ condition))).outcome = .ok false ∧
      (evaluate fault scope (.text (condition ++ " != " ++ other))).outcome = .ok true ∧
      (evaluate fault scope (.text (other ++ " != " ++ condition))).outcome = .ok true := by
  constructor
  · cases houtcome : (Template.complete id scope condition).outcome with
    | error e => simp [evaluate_of_unfilled fault h.ne_nil houtcome]
    | ok text =>
      obtain rfl := Template.complete_eq_filled houtcome
      have hfalse : Template.filled scope condition ≠ "false" := fun heq => by
        have hopens := h.opens
        rw [heq] at hopens
        exact absurd hopens (by decide)
      have hne : Template.filled scope condition ≠ [] := fun heq => by
        have hopens := h.opens
        rw [heq] at hopens
        exact absurd hopens (by decide)
      rw [evaluate_of_filled fault h.ne_nil houtcome, Except.ok.injEq, holds_eq_false_iff hfalse hne]
      simp
  · intro text other otherText hside hother htext hothertext hopens
    obtain rfl := Template.complete_eq_filled hside.filled
    have hoperands := h.operand_ne hopens
    rw [evaluate_equality fault hside hother htext hothertext,
      evaluate_equality fault hother hside hothertext htext,
      evaluate_difference fault hside hother htext.differ hothertext.differ,
      evaluate_difference fault hother hside hothertext.differ htext.differ]
    simp [hoperands, hoperands.symm]

/-- A name that is not bound is not equal to a truth value, and differs from it. -/
theorem unresolved_meaning_of_name :
    let scope : Scope := ⟨[], [(.text "STAGE", .text "dev")]⟩
    let condition : Text := (Template.Piece.placeholder "NAME").source
    IsUnresolved scope condition ∧ IsSide scope condition condition ∧ IsSide scope "true" "true" ∧
      (evaluate id scope (.text (condition ++ " == " ++ "true"))).outcome = .ok false ∧
      (evaluate id scope (.text (condition ++ " != " ++ "true"))).outcome = .ok true ∧
      (evaluate id scope (.text condition)).outcome ≠ .ok false := by
  intro scope condition
  have h : IsUnresolved scope condition := ⟨"NAME", by decide +kernel, rfl⟩
  have hside : IsSide scope condition condition := ⟨Template.source_isClosed "NAME", by decide +kernel⟩
  have hother : IsSide scope "true" "true" := ⟨.of_not_mem (by decide), by decide +kernel⟩
  obtain ⟨hequal, -, hdiffer, -⟩ :=
    (unresolved_meaning id h).2 condition "true" "true" hside hother (by decide) (by decide) (by decide)
  have hbare : (evaluate id scope (.text condition)).outcome ≠ .ok false := by
    rw [Ne, (unresolved_meaning id h).1, not_or, ← Template.complete_eq_filled hside.filled,
      ← holds_eq_false_iff (by decide) (by decide)]
    exact ⟨fun hnone => hnone condition hside.filled, by decide +kernel⟩
  exact ⟨h, hside, hother, hequal, hdiffer, hbare⟩

/-- A condition with a name that is not bound may hold: where it compares nothing, where it asks whether the name
has a value, and where it compares the name with itself. -/
theorem unresolved_holds :
    let scope : Scope := ⟨[], []⟩
    let name : Text := (Template.Piece.placeholder "NAME").source
    ∀ condition ∈ ([name, name ++ " != ''", name ++ " == " ++ name] : List Text),
      IsUnresolved scope condition ∧ (evaluate id scope (.text condition)).outcome = .ok true := by
  intro scope name
  have hall : ∀ condition ∈ ([name, name ++ " != ''", name ++ " == " ++ name] : List Text),
      .placeholder "NAME" ∈ Template.pieces condition ∧
        (evaluate id scope (.text condition)).outcome = .ok true := by decide +kernel
  intro condition hcondition
  obtain ⟨hmem, hholds⟩ := hall condition hcondition
  exact ⟨⟨"NAME", hmem, rfl⟩, hholds⟩

end Condition
end TestPlan
