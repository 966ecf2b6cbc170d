import TestPlan.Proofs.Condition.Comparison
import TestPlan.Proofs.Substitution.Closed
import TestPlan.Proofs.Substitution.Reading

/-!
# Comparing templates

The sides of a comparison are filled one by one where the left one is closed, and then the comparison is read
(`Condition.evaluate_comparison`). So templates that are filled without operators are compared by their operands,
and comparing for difference is the opposite (`Condition.equality_and_difference`). A value with an operator in
it is read as part of the condition, however, and need not be equal to itself (`Condition.values_compare`).
-/

namespace TestPlan.Condition

variable {ε : Type} {scope : Scope} {condition text operator left right leftText rightText : Text}

/-- A condition that is a text holds exactly if what it is filled with does. -/
theorem evaluate_of_filled (fault : WriteFault → ε) (hne : condition ≠ [])
    (h : (Template.complete id scope condition).outcome = .ok text) :
    evaluate fault scope (.text condition) =
      ⟨(Template.complete id scope condition).log, .ok (holds text)⟩ := by
  have hnonempty : condition.isEmpty = false := List.isEmpty_eq_false_iff.mpr hne
  simp only [evaluate, hnonempty, evaluateText, h]
  rfl

/-- A condition that cannot be filled does not hold. -/
theorem evaluate_of_unfilled (fault : WriteFault → ε) (hne : condition ≠ []) {e : WriteFault}
    (h : (Template.complete id scope condition).outcome = .error e) :
    (evaluate fault scope (.text condition)).outcome = .ok false := by
  have hnonempty : condition.isEmpty = false := List.isEmpty_eq_false_iff.mpr hne
  simp only [evaluate, hnonempty, evaluateText, h]
  rfl

/-- A template that may stand on a side of a comparison, and what it is filled with. -/
structure IsSide (scope : Scope) (template text : Text) : Prop where
  closed : template.IsClosed
  filled : (Template.complete id scope template).outcome = .ok text

/-- The sides of a comparison are filled one by one. -/
theorem evaluate_comparison (fault : WriteFault → ε) (hoperator : .char '{' ∉ operator)
    (hleft : IsSide scope left leftText) (hright : IsSide scope right rightText) :
    (evaluate fault scope (.text (comparison operator left right))).outcome =
      .ok (holds (comparison operator leftText rightText)) := by
  have hnone : .char '{' ∉ .char ' ' :: operator ++ [.char ' '] := by simp [hoperator]
  have hmiddle : (Template.complete id scope (.char ' ' :: operator ++ [.char ' '])).outcome =
      .ok (.char ' ' :: operator ++ [.char ' ']) :=
    congrArg Run.outcome (Template.complete_of_opensNowhere id scope (Template.opensNowhere_of_not_mem hnone []))
  have hparts (first second : Text) : comparison operator first second =
      first ++ ((.char ' ' :: operator ++ [.char ' ']) ++ second) := by simp [comparison]
  have hfilled : (Template.complete id scope (comparison operator left right)).outcome =
      .ok (comparison operator leftText rightText) := by
    rw [hparts, hparts]
    apply Template.complete_append_eq_ok hleft.closed hleft.filled
    exact Template.complete_append_eq_ok (.of_not_mem hnone) hmiddle hright.filled
  rw [evaluate_of_filled fault (by simp [comparison]) hfilled]

/-- An equality written out is a comparison with its operator. -/
theorem equality_eq_comparison (left right : Text) :
    (left ++ " == " ++ right : Text) = comparison "==" left right :=
  List.append_assoc left _ right

/-- A difference written out is a comparison with its operator. -/
theorem difference_eq_comparison (left right : Text) :
    (left ++ " != " ++ right : Text) = comparison "!=" left right :=
  List.append_assoc left _ right

/-- Templates that are filled without operators are equal exactly if the operands are. -/
theorem evaluate_equality (fault : WriteFault → ε) (hleft : IsSide scope left leftText)
    (hright : IsSide scope right rightText) (hleftText : HasNoOperator leftText)
    (hrightText : HasNoOperator rightText) :
    (evaluate fault scope (.text (left ++ " == " ++ right))).outcome =
      .ok (decide (operand leftText = operand rightText)) := by
  rw [equality_eq_comparison, evaluate_comparison fault (by decide) hleft hright,
    holds_equality hleftText hrightText]

/-- Templates that are filled without the operator for difference differ exactly if the operands do. -/
theorem evaluate_difference (fault : WriteFault → ε) (hleft : IsSide scope left leftText)
    (hright : IsSide scope right rightText) (hleftText : ¬ ("!=" : Text) <:+: leftText)
    (hrightText : ¬ ("!=" : Text) <:+: rightText) :
    (evaluate fault scope (.text (left ++ " != " ++ right))).outcome =
      .ok (!decide (operand leftText = operand rightText)) := by
  rw [difference_eq_comparison, evaluate_comparison fault (by decide) hleft hright,
    holds_difference hleftText hrightText]

/-- Two templates that are filled without operators are equal in a condition exactly if what they are filled with is
equal without the white space and the quotes around it. They differ exactly if they are not equal, and the sides
may be exchanged. -/
theorem equality_and_difference (fault : WriteFault → ε) (hleft : IsSide scope left leftText)
    (hright : IsSide scope right rightText) (hleftText : HasNoOperator leftText)
    (hrightText : HasNoOperator rightText) :
    ∃ holds, (evaluate fault scope (.text (left ++ " == " ++ right))).outcome = .ok holds ∧
      (holds = true ↔ operand leftText = operand rightText) ∧
      (evaluate fault scope (.text (left ++ " != " ++ right))).outcome = .ok (!holds) ∧
      (evaluate fault scope (.text (right ++ " == " ++ left))).outcome = .ok holds := by
  refine ⟨decide (operand leftText = operand rightText),
    evaluate_equality fault hleft hright hleftText hrightText, decide_eq_true_iff,
    evaluate_difference fault hleft hright hleftText.differ hrightText.differ, ?_⟩
  have hexchanged := evaluate_equality fault hright hleft hrightText hleftText
  exact hexchanged.trans (congrArg Except.ok (decide_eq_decide.mpr eq_comm))

/-- A truth value that fills a placeholder is equal to its word in quotes. -/
theorem equality_and_difference_of_flag :
    let scope : Scope := ⟨[(.text "FLAG", .scalar (.bool true))], []⟩
    let left : Text := "\x7b\x7b FLAG \x7d\x7d"
    let right : Text := "'true' "
    IsSide scope left "true" ∧ IsSide scope right right ∧ HasNoOperator "true" ∧ HasNoOperator right ∧
      ∃ holds, (evaluate id scope (.text (left ++ " == " ++ right))).outcome = .ok holds ∧
        (holds = true ↔ operand "true" = operand right) ∧
        (evaluate id scope (.text (left ++ " != " ++ right))).outcome = .ok (!holds) ∧
        (evaluate id scope (.text (right ++ " == " ++ left))).outcome = .ok holds := by
  intro scope left right
  have hleft : IsSide scope left "true" :=
    ⟨.inr ⟨"\x7b\x7b FLAG ", [], by decide, List.not_mem_nil⟩, by decide +kernel⟩
  have hright : IsSide scope right right := ⟨.inl (by decide), by decide +kernel⟩
  have hleftText : HasNoOperator "true" := by decide
  have hrightText : HasNoOperator right := by decide
  exact ⟨hleft, hright, hleftText, hrightText,
    equality_and_difference id hleft hright hleftText hrightText⟩

/-- A name that a placeholder asks for when it is written between the braces: it is not empty, and has neither
closing braces nor white space at its ends. -/
structure IsPlainName (name : Text) : Prop extends Template.IsBody name, Text.IsTrimmed name

/-- A placeholder may stand on a side of a comparison when its name is bound to a value that can be written. -/
theorem isSide_of_bound {name : Text} (hname : IsPlainName name) {v : Value} (hvalue : scope.value? name = some v)
    (hv : v.isWritable = true) : IsSide scope (Template.Piece.placeholder name).source v.parameterText := by
  have htrim : Text.trim name = name := Text.trim_eq_iff.mpr ⟨hname.toIsTrimmed, Text.isPadded_refl name⟩
  have hr : (Template.Reading.token [] name (.last [])).IsLeftmost :=
    ⟨hname.toIsBody, Template.opensNowhere_nil _, Template.opensNowhere_nil []⟩
  have hwritable : ∀ body ∈ [name], scope.isWritable (Text.trim body) = true := by
    intro body hbody
    rw [List.mem_singleton.mp hbody, htrim, Scope.isWritable, hvalue, Option.all_some, hv]
  have hfilled := Template.complete_of_reading id hr hwritable
  have htext : Template.replacement scope name = v.parameterText := by
    rw [← Template.fill_placeholder, Template.Piece.fill, Template.nameOf, htrim, Scope.lookup, hvalue]
    rfl
  refine ⟨Template.source_isClosed name, ?_⟩
  simpa [Template.Reading.source, Template.Reading.replaced, htext] using congrArg Run.outcome hfilled

/-- Two values that fill placeholders are read as part of the comparison. They are equal in it exactly if their
operands are when neither has an operator in it, and differ exactly if the operands do when the operator for
difference is in neither. -/
theorem values_compare (fault : WriteFault → ε) {a b : Text} (ha : IsPlainName a) (hb : IsPlainName b) {v w : Value}
    (hv : scope.value? a = some v) (hw : scope.value? b = some w) (hvwritable : v.isWritable = true)
    (hwwritable : w.isWritable = true) :
    let hole (name : Text) : Text := (Template.Piece.placeholder name).source
    let x : Text := v.parameterText
    let y : Text := w.parameterText
    (evaluate fault scope (.text (hole a ++ " == " ++ hole b))).outcome = .ok (decide (Holds (x ++ " == " ++ y))) ∧
    (evaluate fault scope (.text (hole a ++ " != " ++ hole b))).outcome = .ok (decide (Holds (x ++ " != " ++ y))) ∧
    (HasNoOperator x → HasNoOperator y →
      (evaluate fault scope (.text (hole a ++ " == " ++ hole b))).outcome =
        .ok (decide (operand x = operand y))) ∧
    (¬ ("!=" : Text) <:+: x → ¬ ("!=" : Text) <:+: y →
      (evaluate fault scope (.text (hole a ++ " != " ++ hole b))).outcome =
        .ok (!decide (operand x = operand y))) := by
  intro hole x y
  have hx : IsSide scope (hole a) x := isSide_of_bound ha hv hvwritable
  have hy : IsSide scope (hole b) y := isSide_of_bound hb hw hwwritable
  refine ⟨?_, ?_, fun hx' hy' => evaluate_equality fault hx hy hx' hy',
    fun hx' hy' => evaluate_difference fault hx hy hx' hy'⟩
  · rw [equality_eq_comparison, equality_eq_comparison, evaluate_comparison fault (by decide) hx hy,
    holds_eq_decide]
  · rw [difference_eq_comparison, difference_eq_comparison, evaluate_comparison fault (by decide) hx hy,
      holds_eq_decide]

/-- A parameter and a variable are compared without their white space and quotes. -/
theorem values_compare_of_quotes :
    let scope : Scope := ⟨[(.text "A", .text " 'a = b' ")], [(.text "B", .text "a = b")]⟩
    let hole (name : Text) : Text := (Template.Piece.placeholder name).source
    IsPlainName "A" ∧ IsPlainName "B" ∧ scope.value? "A" = some (.text " 'a = b' ") ∧
      scope.value? "B" = some (.text "a = b") ∧
      (evaluate id scope (.text (hole "A" ++ " == " ++ hole "B"))).outcome = .ok true ∧
      (evaluate id scope (.text (hole "A" ++ " != " ++ hole "B"))).outcome = .ok false := by
  intro scope hole
  have ha : IsPlainName "A" := ⟨⟨by decide, by decide⟩, ⟨by decide, by decide⟩⟩
  have hb : IsPlainName "B" := ⟨⟨by decide, by decide⟩, ⟨by decide, by decide⟩⟩
  have hv : scope.value? "A" = some (.text " 'a = b' ") := rfl
  have hw : scope.value? "B" = some (.text "a = b") := rfl
  obtain ⟨-, -, hequal, hdiffer⟩ := values_compare id ha hb hv hw (by decide) (by decide)
  exact ⟨ha, hb, hv, hw, hequal (by decide) (by decide), hdiffer (by decide) (by decide)⟩

/-- A value with an operator in it may not be equal to itself and may not differ from others, and a placeholder
without a name is none. -/
theorem values_compare_otherwise :
    let scope : Scope :=
      ⟨[(.text "A", .text "a==b"), (.text "B", .text "a==b"), (.text "C", .text "a!=a"),
        (.text "", .text "a==b")], []⟩
    let hole (name : Text) : Text := (Template.Piece.placeholder name).source
    scope.lookup "A" = scope.lookup "B" ∧ scope.lookup "C" ≠ scope.lookup "B" ∧ scope.lookup "" = scope.lookup "B" ∧
      (evaluate id scope (.text (hole "A" ++ " == " ++ hole "B"))).outcome = .ok false ∧
      (evaluate id scope (.text (hole "C" ++ " != " ++ hole "B"))).outcome = .ok false ∧
      (evaluate id scope (.text (hole "" ++ " == " ++ hole "B"))).outcome = .ok false := by
  decide +kernel

end TestPlan.Condition
