import TestPlan.Proofs.TagGrammar

/-!
# Filters as formulas

A written filter is a formula over tags: `|` between two filters means that one of them matches, and `,` between two
single groups that both do (`TagFilter.filters_compose`). That holds of the texts as they are written, since a text
splits at a separator that is put into it and otherwise as its parts do (`Text.split_append_cons`). There is no
negation in a formula, so what matters about the tags is only which there are, and more tags match more filters.
-/

namespace TestPlan

/-- A symbol between two texts separates their pieces. -/
theorem Text.split_append_cons (sep : Symbol) (before after : Text) :
    split sep (before ++ sep :: after) = split sep before ++ split sep after := by
  simp only [split_eq_splitOn, List.splitOn]
  exact List.splitOnP_append_cons before after (by simp)

/-- A text without a symbol is one piece. -/
theorem Text.split_of_not_mem {sep : Symbol} {text : Text} (h : sep ∉ text) : split sep text = [text] :=
  split_eq_iff.mpr ⟨List.cons_ne_nil _ _, List.forall_mem_singleton.mpr h, rfl⟩

namespace TagFilter

variable {f g : Text} {tags : Option (List Value)}

/-- A bar puts the groups of two filters together. -/
theorem ofText_append_bar (f g : Text) : ofText (f ++ .char '|' :: g) = ofText f ++ ofText g := by
  rw [ofText, Text.split_append_cons, List.map_append, ofText, ofText]

/-- A comma puts the tags of two groups together. -/
theorem group_append_comma (f g : Text) : group (f ++ .char ',' :: g) = group f ++ group g := by
  rw [group, Text.split_append_cons, List.map_append, group, group]

/-- A text without a bar is one group. -/
theorem ofText_of_not_mem (h : .char '|' ∉ f) : ofText f = [group f] := by
  rw [ofText, Text.split_of_not_mem h]
  rfl

/-- A filter that is not empty lets a list of tags through exactly if the tags of one of its groups are all on it.
-/
theorem matches_iff_of_ne_nil (hf : f ≠ []) : Matches (some f) tags ↔
    ∀ own ∈ tags, own ≠ [] ∧ ∃ group ∈ ofText f, ∀ tag ∈ group, Value.text tag ∈ own := by
  simp only [Matches, ofSetting?_of_ne_nil hf, Option.mem_some_iff, forall_eq']

/-- A bar stands for "or". -/
theorem matches_append_bar (hf : f ≠ []) (hg : g ≠ []) :
    Matches (some (f ++ .char '|' :: g)) tags ↔ Matches (some f) tags ∨ Matches (some g) tags := by
  have hfg : f ++ .char '|' :: g ≠ [] := by simp [hf]
  rw [matches_iff_of_ne_nil hfg, matches_iff_of_ne_nil hf, matches_iff_of_ne_nil hg, ofText_append_bar]
  cases tags with
  | none => simp
  | some own => simp only [Option.mem_some_iff, forall_eq', List.mem_append, or_and_right, exists_or, and_or_left]

/-- A comma between two groups stands for "and". -/
theorem matches_append_comma (hf : f ≠ []) (hg : g ≠ []) (hfbar : .char '|' ∉ f) (hgbar : .char '|' ∉ g) :
    Matches (some (f ++ .char ',' :: g)) tags ↔ Matches (some f) tags ∧ Matches (some g) tags := by
  have hfg : f ++ .char ',' :: g ≠ [] := by simp [hf]
  have hbar : .char '|' ∉ f ++ .char ',' :: g := by simp [hfbar, hgbar]
  rw [matches_iff_of_ne_nil hfg, matches_iff_of_ne_nil hf, matches_iff_of_ne_nil hg, ofText_of_not_mem hbar,
    ofText_of_not_mem hfbar, ofText_of_not_mem hgbar, group_append_comma]
  simp only [List.mem_singleton, exists_eq_left, List.forall_mem_append]
  constructor
  · intro h
    exact ⟨fun own hown => ⟨(h own hown).1, (h own hown).2.1⟩, fun own hown => ⟨(h own hown).1, (h own hown).2.2⟩⟩
  · rintro ⟨hleft, hright⟩ own hown
    exact ⟨(hleft own hown).1, (hleft own hown).2, (hright own hown).2⟩

/-- Every tag of one list is a tag of another, where the same number is the same tag in any form. -/
def IsPart (own other : List Scalar) : Prop := ∀ tag ∈ own, ∃ same ∈ other, tag = same ∨ tag.sameKey same = true

/-- A text among the tags of a list is among the tags of every list that it is a part of. -/
theorem IsPart.text_mem {own other : List Scalar} (h : IsPart own other) {tag : Text} (htag : .text tag ∈ own) :
    Scalar.text tag ∈ other := by
  obtain ⟨same, hsame, rfl | hkey⟩ := h _ htag
  · exact hsame
  · rw [Scalar.text_sameKey, beq_iff_eq] at hkey
    exact hkey ▸ hsame

/-- More tags match more filters. -/
theorem Matches.of_isPart {own other : List Scalar} (hpart : IsPart own other)
    (h : Matches (some f) (some (own.map .scalar))) : Matches (some f) (some (other.map .scalar)) := by
  have htext {tags : List Scalar} {tag : Text} :
      Value.text tag ∈ tags.map Value.scalar ↔ .text tag ∈ tags := by simp
  rintro filter hfilter _ ⟨⟩
  obtain ⟨hne, group, hgroup, htags⟩ := h filter hfilter _ rfl
  refine ⟨?_, group, hgroup, fun tag htag => htext.mpr (hpart.text_mem (htext.mp (htags tag htag)))⟩
  obtain ⟨first, hfirst⟩ := List.exists_mem_of_ne_nil own (by simpa using hne)
  obtain ⟨same, hsame, -⟩ := hpart first hfirst
  exact List.ne_nil_of_mem (List.mem_map_of_mem hsame)

/-- The tags of a definition, all of them scalars, or no list of tags. -/
def scalarTags (tags : Option (List Scalar)) : Option (List Value) := tags.map (List.map Value.scalar)

/-- Scalar tags pass exactly if they match. -/
theorem passes_scalarTags (setting : Option Text) (tags : Option (List Scalar)) :
    ∃ passed : Bool, passes setting (scalarTags tags) = .ok passed ∧
      (passed = true ↔ Matches setting (scalarTags tags)) := by
  refine passes_of_scalars (fun own hown tag htag => ?_) setting
  obtain ⟨scalars, -, rfl⟩ := Option.map_eq_some_iff.mp hown
  obtain ⟨s, -, rfl⟩ := List.mem_map.mp htag
  exact ⟨s, rfl⟩

/-- Scalar tags pass a filter exactly if they match it. -/
theorem passes_scalarTags_eq_ok_true (setting : Option Text) (tags : Option (List Scalar)) :
    passes setting (scalarTags tags) = .ok true ↔ Matches setting (scalarTags tags) := by
  obtain ⟨passed, hpasses, hpassed⟩ := passes_scalarTags setting tags
  rw [hpasses, ← hpassed, Except.ok.injEq]

/-- Filters compose like formulas, for every list of scalar tags and for no list: `|` is "or", and `,` between two
filters without `|` is "and". Lists with the same tags pass the same filters, in whatever order and however often
the tags stand there, and a list with more tags passes whatever filter the shorter one does. -/
theorem filters_compose {f g : Text} (hf : f ≠ []) (hg : g ≠ []) :
    (∀ tags : Option (List Scalar), ∃ first second : Bool,
      passes (some f) (scalarTags tags) = .ok first ∧ passes (some g) (scalarTags tags) = .ok second ∧
      passes (some (f ++ .char '|' :: g)) (scalarTags tags) = .ok (first || second) ∧
      (.char '|' ∉ f → .char '|' ∉ g →
        passes (some (f ++ .char ',' :: g)) (scalarTags tags) = .ok (first && second))) ∧
    (∀ own other : List Scalar, IsPart own other → IsPart other own →
      passes (some f) (scalarTags (some own)) = passes (some f) (scalarTags (some other))) ∧
    ∀ own other : List Scalar, IsPart own other → passes (some f) (scalarTags (some own)) = .ok true →
      passes (some f) (scalarTags (some other)) = .ok true := by
  refine ⟨fun tags => ?_, fun own other hpart hback => ?_, fun own other hpart h => ?_⟩
  · obtain ⟨first, hfirst, hfirstIff⟩ := passes_scalarTags (some f) tags
    obtain ⟨second, hsecond, hsecondIff⟩ := passes_scalarTags (some g) tags
    refine ⟨first, second, hfirst, hsecond, ?_, fun hfbar hgbar => ?_⟩
    · obtain ⟨either, heither, heitherIff⟩ := passes_scalarTags (some (f ++ .char '|' :: g)) tags
      have heq : either = (first || second) := by
        rw [Bool.eq_iff_iff, Bool.or_eq_true, heitherIff, hfirstIff, hsecondIff, matches_append_bar hf hg]
      rw [heither, heq]
    · obtain ⟨both, hboth, hbothIff⟩ := passes_scalarTags (some (f ++ .char ',' :: g)) tags
      have heq : both = (first && second) := by
        rw [Bool.eq_iff_iff, Bool.and_eq_true, hbothIff, hfirstIff, hsecondIff,
          matches_append_comma hf hg hfbar hgbar]
      rw [hboth, heq]
  · obtain ⟨first, hfirst, hfirstIff⟩ := passes_scalarTags (some f) (some own)
    obtain ⟨second, hsecond, hsecondIff⟩ := passes_scalarTags (some f) (some other)
    have heq : first = second := by
      rw [Bool.eq_iff_iff, hfirstIff, hsecondIff]
      exact ⟨Matches.of_isPart hpart, Matches.of_isPart hback⟩
    rw [hfirst, hsecond, heq]
  · rw [passes_scalarTags_eq_ok_true] at h ⊢
    exact h.of_isPart hpart

/-- An empty group, a number in two forms and a repeated tag: "smoke" passes with either filter, and not with both.
-/
theorem filters_compose_of_smoke :
    let f : Text := " smoke "
    let g : Text := ",critical"
    let own : List Scalar := [.int 1, .text "smoke"]
    let other : List Scalar := [.text "smoke", .bool true, .text "smoke"]
    f ≠ [] ∧ g ≠ [] ∧ IsPart own other ∧
      passes (some (f ++ .char '|' :: g)) (scalarTags (some own)) = .ok true ∧
      passes (some (f ++ .char ',' :: g)) (scalarTags (some own)) = .ok false ∧
      passes (some f) (scalarTags (some other)) = .ok true := by
  intro f g own other
  have hf : f ≠ [] := List.cons_ne_nil _ _
  have hg : g ≠ [] := List.cons_ne_nil _ _
  have hpart : IsPart own other := by
    refine List.forall_mem_cons.mpr ⟨⟨.bool true, by decide, .inr rfl⟩, List.forall_mem_singleton.mpr ?_⟩
    exact ⟨.text "smoke", by decide, .inl rfl⟩
  obtain ⟨hcompose, -, hmore⟩ := filters_compose hf hg
  obtain ⟨first, second, hfirst, hsecond, heither, hboth⟩ := hcompose (some own)
  obtain rfl : true = first := Except.ok.inj (Eq.trans (by decide) hfirst)
  obtain rfl : false = second := Except.ok.inj (Eq.trans (by decide) hsecond)
  exact ⟨hf, hg, hpart, heither, hboth (by decide) (by decide), hmore own other hpart hfirst⟩

end TagFilter
end TestPlan
