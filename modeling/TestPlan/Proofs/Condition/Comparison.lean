import TestPlan.Condition
import TestPlan.Proofs.Text.Words

/-!
# How a filled condition is read

A filled condition compares what is before the first operator in it with what follows up to the next one, and
`!=` is looked for before `==` (`Condition.Holds`). Where the operands have no operators in them, the one that
is written between them is found, and the operands are compared without the white space and the quotes around
them (`Condition.holds_equality`, `Condition.holds_difference`).
-/

namespace TestPlan.Condition

variable {operator text left right part : Text}

/-- A text up to the first occurrence of a word, if the word occurs in it. -/
def IsUpTo (word text part : Text) : Prop :=
  (∃ after, Text.IsCut word text part after) ∨ ¬ word <:+: text ∧ part = text

/-- The operands that an operator in a text compares: what is before it, and what follows up to the next one. -/
def Compares (operator text left right : Text) : Prop :=
  ∃ before rest part, Text.IsCut operator text before rest ∧ IsUpTo operator rest part ∧
    left = operand before ∧ right = operand part

/-- A text has operands exactly if the operator occurs in it. -/
theorem operands?_eq_none_iff : operands? operator text = none ↔ ¬ operator <:+: text := by
  rw [operands?, Option.map_eq_none_iff, Text.cutWord?_eq_none_iff]

/-- The operands of a text are those that the operator compares. -/
theorem operands?_eq_some_iff : operands? operator text = some (left, right) ↔
    Compares operator text left right := by
  rw [operands?, Option.map_eq_some_iff]
  constructor
  · rintro ⟨⟨before, rest⟩, hcut, hoperands⟩
    have hcut := Text.cutWord?_eq_some_iff.mp hcut
    obtain ⟨hleft, hright⟩ := Prod.mk.inj hoperands
    cases hnext : Text.cutWord? operator rest with
    | some found =>
      obtain ⟨part, after⟩ := found
      rw [hnext] at hright
      exact ⟨before, rest, part, hcut, .inl ⟨after, Text.cutWord?_eq_some_iff.mp hnext⟩, hleft.symm, hright.symm⟩
    | none =>
      rw [hnext] at hright
      exact ⟨before, rest, rest, hcut, .inr ⟨Text.cutWord?_eq_none_iff.mp hnext, rfl⟩, hleft.symm, hright.symm⟩
  · rintro ⟨before, rest, part, hcut, hpart, rfl, rfl⟩
    refine ⟨(before, rest), Text.cutWord?_eq_some_iff.mpr hcut, ?_⟩
    rcases hpart with ⟨after, hnext⟩ | ⟨hnone, rfl⟩
    · simp [Text.cutWord?_eq_some_iff.mpr hnext]
    · simp [Text.cutWord?_eq_none_iff.mpr hnone]

/-- When a filled condition holds. -/
inductive Holds : Text → Prop
  /-- it compares for difference, and the operands differ -/
  | differ {text left right : Text} (h : Compares "!=" text left right) (hne : left ≠ right) : Holds text
  /-- it compares for equality only, and the operands are equal -/
  | equal {text left right : Text} (hnone : ¬ ("!=" : Text) <:+: text) (h : Compares "==" text left right)
      (heq : left = right) : Holds text
  /-- it compares nothing, and is neither empty nor the word for falsity -/
  | truth {text : Text} (hdiffer : ¬ ("!=" : Text) <:+: text) (hequal : ¬ ("==" : Text) <:+: text)
      (hfalse : text ≠ "false") (hne : text ≠ []) : Holds text

/-- A filled condition that compares for difference holds exactly if its operands differ. -/
theorem holds_of_differ (h : operands? "!=" text = some (left, right)) : holds text = (left != right) := by
  simp only [holds, h]

/-- A filled condition that compares for equality only holds exactly if its operands are equal. -/
theorem holds_of_equal (hnone : operands? "!=" text = none) (h : operands? "==" text = some (left, right)) :
    holds text = areEqual left right := by
  simp only [holds, hnone, h]

/-- A filled condition that compares nothing is a truth value. -/
theorem holds_of_truth (hdiffer : operands? "!=" text = none) (hequal : operands? "==" text = none) :
    holds text = isTruth text := by
  simp only [holds, hdiffer, hequal]

/-- Reading a filled condition tells whether it holds. -/
theorem holds_iff : holds text = true ↔ Holds text := by
  constructor
  · intro h
    cases hdiffer : operands? "!=" text with
    | some found =>
      rw [holds_of_differ hdiffer, bne_iff_ne] at h
      exact .differ (operands?_eq_some_iff.mp hdiffer) h
    | none =>
      cases hequal : operands? "==" text with
      | some found =>
        rw [holds_of_equal hdiffer hequal, areEqual_iff] at h
        exact .equal (operands?_eq_none_iff.mp hdiffer) (operands?_eq_some_iff.mp hequal) h
      | none =>
        rw [holds_of_truth hdiffer hequal, isTruth_iff] at h
        exact .truth (operands?_eq_none_iff.mp hdiffer) (operands?_eq_none_iff.mp hequal) h.1 h.2
  · intro h
    cases h with
    | differ h hne => rwa [holds_of_differ (operands?_eq_some_iff.mpr h), bne_iff_ne]
    | equal hnone h heq =>
      rwa [holds_of_equal (operands?_eq_none_iff.mpr hnone) (operands?_eq_some_iff.mpr h), areEqual_iff]
    | truth hdiffer hequal hfalse hne =>
      rw [holds_of_truth (operands?_eq_none_iff.mpr hdiffer) (operands?_eq_none_iff.mpr hequal), isTruth_iff]
      exact ⟨hfalse, hne⟩

/-- Whether a comparison holds is decided by evaluating it. -/
instance (text : Text) : Decidable (Holds text) := decidable_of_iff _ holds_iff

/-- Evaluating a comparison decides whether it holds. -/
theorem holds_eq_decide (text : Text) : holds text = decide (Holds text) :=
  Bool.eq_iff_iff.mpr (holds_iff.trans decide_eq_true_iff.symm)

/-- White space around a text makes no difference to the operand. -/
theorem operand_of_isPadded {core : Text} (h : Text.IsPadded core text) : operand text = operand core := by
  rw [operand, operand, h.trim_eq_trim]

/-- The text of a comparison. -/
def comparison (operator left right : Text) : Text := left ++ .char ' ' :: (operator ++ .char ' ' :: right)

/-- A word without blanks occurs in a comparison exactly if it occurs in one of its parts. -/
theorem infix_comparison_iff {word : Text} (hword : .char ' ' ∉ word) :
    word <:+: comparison operator left right ↔ word <:+: left ∨ word <:+: operator ∨ word <:+: right := by
  rw [comparison, Text.infix_append_cons_iff left hword, Text.infix_append_cons_iff operator hword]

/-- Where an operator occurs on neither side of it, a comparison is read as it is written. -/
theorem operands?_comparison (hblank : .char ' ' ∉ operator) (hne : operator ≠ [])
    (hleft : ¬ operator <:+: left) (hright : ¬ operator <:+: right) :
    operands? operator (comparison operator left right) = some (operand left, operand right) := by
  have hspace : Text.IsWhite [.char ' '] := fun s hs => by
    rw [List.mem_singleton.mp hs]
    decide
  have hcut : Text.cutWord? operator (operator ++ .char ' ' :: right) = some ([], .char ' ' :: right) :=
    Text.cutWord?_eq_some_iff.mpr ⟨rfl, fun _ _ _ => Nat.zero_le _⟩
  have hnone : Text.cutWord? operator (.char ' ' :: right) = none := by
    rw [Text.cutWord?_eq_none_iff]
    intro h
    rcases (Text.infix_append_cons_iff [] hblank).mp h with h | h
    · exact hne (List.infix_nil.mp h)
    · exact hright h
  have hbefore : operand (left ++ [.char ' ']) = operand left :=
    operand_of_isPadded ⟨[], [.char ' '], nofun, hspace, by simp⟩
  have hafter : operand (.char ' ' :: right) = operand right :=
    operand_of_isPadded ⟨[.char ' '], [], hspace, nofun, by simp⟩
  simp only [operands?, comparison, Text.cutWord?_append_cons hblank hne hleft, hcut, hnone, Option.map_some,
    hbefore, hafter]

/-- A text in which no operator occurs. -/
structure HasNoOperator (text : Text) : Prop where
  equal : ¬ ("==" : Text) <:+: text
  differ : ¬ ("!=" : Text) <:+: text

/-- Whether there is an operator in a text is decided by looking for both. -/
instance (text : Text) : Decidable (HasNoOperator text) :=
  decidable_of_iff (¬ ("==" : Text) <:+: text ∧ ¬ ("!=" : Text) <:+: text)
    ⟨fun ⟨hequal, hdiffer⟩ => ⟨hequal, hdiffer⟩, fun ⟨hequal, hdiffer⟩ => ⟨hequal, hdiffer⟩⟩

/-- Two texts without operators are equal in a comparison exactly if their operands are. -/
theorem holds_equality (hleft : HasNoOperator left) (hright : HasNoOperator right) :
    holds (comparison "==" left right) = decide (operand left = operand right) := by
  have hdiffer : operands? "!=" (comparison "==" left right) = none := by
    rw [operands?_eq_none_iff, infix_comparison_iff (by decide)]
    exact not_or.mpr ⟨hleft.differ, not_or.mpr ⟨by decide, hright.differ⟩⟩
  have hequal := operands?_comparison (by decide) (by decide) hleft.equal hright.equal
  rw [holds_of_equal hdiffer hequal, Bool.eq_iff_iff, areEqual_iff, decide_eq_true_iff]

/-- Two texts in which the operator for difference does not occur differ in a comparison exactly if their operands
do. -/
theorem holds_difference (hleft : ¬ ("!=" : Text) <:+: left) (hright : ¬ ("!=" : Text) <:+: right) :
    holds (comparison "!=" left right) = !decide (operand left = operand right) := by
  have hdiffer := operands?_comparison (by decide) (by decide) hleft hright
  rw [holds_of_differ hdiffer, bne, beq_eq_decide]

end TestPlan.Condition
