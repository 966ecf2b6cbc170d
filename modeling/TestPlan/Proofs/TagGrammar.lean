import Mathlib.Data.List.Forall2
import TestPlan.Proofs.Selection
import TestPlan.Proofs.Text.Pieces

/-!
# Written tag filters

A filter may be written in many ways, because white space may stand around its tags (`TagFilter.Writes`). All of
them are read back as the same groups, and every text is one of them (`TagFilter.ofText_eq_iff`). So a text means
what is written in it: a list of tags passes if it has all tags of some group (`TagFilter.written_meaning`). The
empty text alone is no filter, although it is a way to write the group of the empty tag.
-/

namespace TestPlan
namespace TagFilter

/-- Items are written one after the other with a symbol between them. -/
def WritesJoined {α : Type} (sep : Symbol) (writes : α → Text → Prop) (items : List α) (text : Text) : Prop :=
  ∃ pieces, List.Forall₂ writes items pieces ∧ text = Text.join sep pieces

/-- The ways of writing a group: white space around each tag, and commas between them. -/
def WritesGroup : List Text → Text → Prop := WritesJoined ',' Text.IsPadded

/-- The ways of writing a filter: its groups with bars between them. -/
def Writes : TagFilter → Text → Prop := WritesJoined '|' WritesGroup

/-- A filter written without white space around its tags. -/
def text (filter : TagFilter) : Text := Text.join '|' (filter.map (Text.join ','))

/-- A tag that can be written: no symbol that separates tags or groups, and no white space at its ends. -/
structure IsTag (tag : Text) : Prop where
  comma : .char ',' ∉ tag
  bar : .char '|' ∉ tag
  trimmed : tag.IsTrimmed

/-- A filter that can be written: at least one group, and in every group at least one tag. -/
structure IsProper (filter : TagFilter) : Prop where
  ne_nil : filter ≠ []
  groups : ∀ group ∈ filter, group ≠ [] ∧ ∀ tag ∈ group, IsTag tag

variable {filter : TagFilter} {written : Text} {tags : List Text}

/-- A filter written without white space is written. -/
theorem writes_text (filter : TagFilter) : Writes filter filter.text := by
  refine ⟨filter.map (Text.join ','), List.forall₂_map_right_iff.mpr (List.forall₂_same.mpr fun tags _ => ?_), rfl⟩
  exact ⟨tags, List.forall₂_same.mpr fun tag _ => Text.isPadded_refl tag, rfl⟩

/-- What is asked of the items besides how they are written does not depend on the text. -/
theorem writesJoined_and_iff {α : Type} {sep : Symbol} {P : α → Prop} {writes : α → Text → Prop} {items : List α} :
    WritesJoined sep (fun item piece => P item ∧ writes item piece) items written ↔
      (∀ item ∈ items, P item) ∧ WritesJoined sep writes items written := by
  simp only [WritesJoined, List.forall₂_and_left, and_assoc, exists_and_left]

/-- Splitting a text and reading its pieces gives certain items exactly if it is written from pieces without the
symbol that are read as these items. -/
theorem map_split_eq_iff {α : Type} {sep : Symbol} {read : Text → α} {items : List α} :
    (Text.split sep written).map read = items ↔
      items ≠ [] ∧ WritesJoined sep (fun item piece => read piece = item ∧ sep ∉ piece) items written := by
  constructor
  · rintro rfl
    refine ⟨by simpa using Text.split_ne_nil sep written, Text.split sep written, ?_,
      (Text.join_split sep written).symm⟩
    exact List.forall₂_map_left_iff.mpr (List.forall₂_same.mpr fun piece hpiece =>
      ⟨rfl, Text.not_mem_of_mem_split hpiece⟩)
  · rintro ⟨hne, pieces, hpieces, rfl⟩
    obtain ⟨hsep, hread⟩ : (∀ piece ∈ pieces, sep ∉ piece) ∧ pieces.map read = items := by
      clear hne
      induction hpieces with
      | nil => simp
      | cons hpiece _ ih =>
        exact ⟨List.forall_mem_cons.mpr ⟨hpiece.2, ih.1⟩, by rw [List.map_cons, hpiece.1, ih.2]⟩
    have hsplit : Text.split sep (Text.join sep pieces) = pieces :=
      Text.split_eq_iff.mpr ⟨by rintro rfl; exact hne hread.symm, hsep, rfl⟩
    rw [hsplit, hread]

/-- A group is read from exactly the ways of writing it, as long as its tags can be told apart. -/
theorem group_eq_iff : group written = tags ↔
    tags ≠ [] ∧ (∀ tag ∈ tags, .char ',' ∉ tag ∧ tag.IsTrimmed) ∧ WritesGroup tags written := by
  have hpiece : (fun tag piece : Text => Text.trim piece = tag ∧ .char ',' ∉ piece) =
      fun tag piece => (.char ',' ∉ tag ∧ tag.IsTrimmed) ∧ Text.IsPadded tag piece := by
    funext tag piece
    rw [Text.trim_eq_iff, eq_iff_iff]
    constructor
    · rintro ⟨⟨htrimmed, hpadded⟩, hcomma⟩
      exact ⟨⟨mt (hpadded.mem_iff (by decide)).mpr hcomma, htrimmed⟩, hpadded⟩
    · rintro ⟨⟨hcomma, htrimmed⟩, hpadded⟩
      exact ⟨⟨htrimmed, hpadded⟩, mt (hpadded.mem_iff (by decide)).mp hcomma⟩
  rw [group, map_split_eq_iff, hpiece, writesJoined_and_iff, WritesGroup]

/-- There is a bar in a written group only if there is one in a tag. -/
theorem bar_mem_iff (h : WritesGroup tags written) : .char '|' ∈ written ↔ ∃ tag ∈ tags, .char '|' ∈ tag := by
  obtain ⟨pieces, hpieces, rfl⟩ := h
  have hblank : Text.isBlank (.char '|') = false := by decide
  rw [Text.mem_join_iff (by decide)]
  induction hpieces with
  | nil => simp
  | cons hpiece _ ih => simp only [List.mem_cons, exists_eq_or_imp, hpiece.mem_iff hblank, ih]

/-- A filter is read from exactly the ways of writing it. -/
theorem ofText_eq_iff : ofText written = filter ↔ filter.IsProper ∧ filter.Writes written := by
  have hpiece : (fun (tags : List Text) piece => group piece = tags ∧ .char '|' ∉ piece) =
      fun tags piece => (tags ≠ [] ∧ ∀ tag ∈ tags, IsTag tag) ∧ WritesGroup tags piece := by
    funext tags piece
    rw [group_eq_iff, eq_iff_iff]
    constructor
    · rintro ⟨⟨hne, htags, hwrites⟩, hbar⟩
      refine ⟨⟨hne, fun tag htag => ?_⟩, hwrites⟩
      exact ⟨(htags tag htag).1, fun hmem => hbar ((bar_mem_iff hwrites).mpr ⟨tag, htag, hmem⟩), (htags tag htag).2⟩
    · rintro ⟨⟨hne, htags⟩, hwrites⟩
      refine ⟨⟨hne, fun tag htag => ⟨(htags tag htag).comma, (htags tag htag).trimmed⟩, hwrites⟩, fun hbar => ?_⟩
      obtain ⟨tag, htag, hmem⟩ := (bar_mem_iff hwrites).mp hbar
      exact (htags tag htag).bar hmem
  have hproper : filter.IsProper ↔ filter ≠ [] ∧ ∀ tags ∈ filter, tags ≠ [] ∧ ∀ tag ∈ tags, IsTag tag :=
    ⟨fun h => ⟨h.ne_nil, h.groups⟩, fun h => ⟨h.1, h.2⟩⟩
  rw [ofText, map_split_eq_iff, hpiece, writesJoined_and_iff, hproper, Writes, and_assoc]

/-- Writing a filter that can be written and reading it gives it back. -/
theorem IsProper.ofText_text (h : filter.IsProper) : ofText filter.text = filter :=
  ofText_eq_iff.mpr ⟨h, writes_text filter⟩

/-- Only the group of the empty tag is written as the empty text. -/
theorem IsProper.text_eq_nil_iff (h : filter.IsProper) : filter.text = [] ↔ filter = [[[]]] := by
  constructor
  · intro hempty
    rw [← h.ofText_text, hempty]
    rfl
  · rintro rfl
    rfl

/-- A text that is not empty is a filter. -/
theorem ofSetting?_of_ne_nil (h : written ≠ []) : ofSetting? (some written) = some (ofText written) := by
  simp [ofSetting?, h]

/-- A text means what is written in it. It is read as the groups that are written in it, in whatever way, and a
list of scalar tags passes exactly if it is not empty and has all tags of some group; without a list everything
passes. And every text has groups written in it, which are read back from being written without white space, unless
that is the empty text. -/
theorem written_meaning {written : Text} (hwritten : written ≠ []) :
    (∀ filter : TagFilter, filter.IsProper → filter.Writes written →
      ofSetting? (some written) = some filter ∧
      ∀ tags : List Value, (∀ tag ∈ tags, ∃ s, tag = .scalar s) →
        ∃ passed : Bool, passes (some written) (some tags) = .ok passed ∧
          (passed = true ↔ tags ≠ [] ∧ ∃ group ∈ filter, ∀ tag ∈ group, Value.text tag ∈ tags)) ∧
    passes (some written) none = .ok true ∧
    ∃ filter : TagFilter, ofSetting? (some written) = some filter ∧ filter.IsProper ∧ filter.Writes written ∧
      (filter.text ≠ [] → ofSetting? (some filter.text) = some filter) ∧ (filter.text = [] ↔ filter = [[[]]]) := by
  have hsetting := ofSetting?_of_ne_nil hwritten
  refine ⟨fun filter hproper hwrites => ?_, ?_, ofText written, hsetting, ?_⟩
  · obtain rfl := ofText_eq_iff.mpr ⟨hproper, hwrites⟩
    refine ⟨hsetting, fun tags hscalars => ?_⟩
    have hall : ∀ own ∈ some tags, ∀ tag ∈ own, ∃ s, tag = .scalar s := fun own hown =>
      Option.some.inj hown ▸ hscalars
    obtain ⟨passed, hpasses, hpassed⟩ := passes_of_scalars hall (some written)
    refine ⟨passed, hpasses, hpassed.trans ?_⟩
    simp only [Matches, hsetting, Option.mem_some_iff, forall_eq']
  · simp [passes]
  · obtain ⟨hproper, hwrites⟩ := ofText_eq_iff.mp (rfl : ofText written = ofText written)
    refine ⟨hproper, hwrites, fun htext => ?_, hproper.text_eq_nil_iff⟩
    rw [ofSetting?_of_ne_nil htext, hproper.ofText_text]

/-- White space, an empty tag and a tag with a blank inside: the groups are read back, and the number is no tag. -/
theorem written_meaning_padded :
    let written : Text := " smoke ,\t|log in"
    let filter : TagFilter := [["smoke", ""], ["log in"]]
    written ≠ [] ∧ ofSetting? (some written) = some filter ∧ filter.IsProper ∧ filter.Writes written ∧
      passes (some written) (some [.text "log in", .int 7]) = .ok true ∧
      passes (some written) (some [.text "smoke", .text "log", .text "in"]) = .ok false := by
  intro written filter
  have hne : written ≠ [] := List.cons_ne_nil _ _
  obtain ⟨hmeaning, -, found, hfound, hproper, hwrites, -⟩ := written_meaning hne
  have hfilter : ofSetting? (some written) = some filter := by decide
  obtain rfl : filter = found := Option.some.inj (hfilter.symm.trans hfound)
  obtain ⟨passed, hpasses, hpassed⟩ := (hmeaning filter hproper hwrites).2 [.text "log in", .int 7] (by simp)
  refine ⟨hne, hfound, hproper, hwrites, ?_, rfl⟩
  rw [hpasses, hpassed.mpr ⟨by simp, ["log in"], by simp [filter], by simp⟩]

end TagFilter
end TestPlan
