import TestPlan.Template

/-!
# Filled templates

Where no placeholder begins, a template has symbols only (`Template.OpensNowhere.pieces_append`). A template is
filled piece by piece, and the pieces of what comes out can be told when the values that fill it are not empty and
have no braces (`Template.FillsCleanly`): placeholders that are bound have become symbols, and all other pieces are
as they were (`Template.pieces_filled`). No new placeholder arises, although the symbols around a value may well be
braces. For where one would open, the template has one already that reaches at least to the first closing braces
behind it, and readings from left to right find that one first (`Template.closes_of_filled`).
-/

namespace TestPlan

/-- A text that is not empty and has no braces. -/
structure Text.IsClean (text : Text) : Prop where
  ne_nil : text ≠ []
  opening : .char '{' ∉ text
  closing : .char '}' ∉ text

/-- Whether a text opens a placeholder is decided place by place. -/
instance (text : Text) : Decidable text.IsClean :=
  decidable_of_iff (text ≠ [] ∧ .char '{' ∉ text ∧ .char '}' ∉ text)
    ⟨fun ⟨h, hopening, hclosing⟩ => ⟨h, hopening, hclosing⟩,
      fun ⟨h, hopening, hclosing⟩ => ⟨h, hopening, hclosing⟩⟩

/-- Every text that is bound to a name is clean. -/
def Scope.IsClean (scope : Scope) : Prop := ∀ name text, scope.lookup name = some text → text.IsClean

namespace Template

variable {scope : Scope} {text body after : Text} {s : Symbol}

/-- A text begins with a placeholder exactly if it begins with braces around something without closing
braces. -/
theorem placeholder?_eq_some_iff : placeholder? text = some (body, after) ↔
    text = (Piece.placeholder body).source ++ after ∧ body ≠ [] ∧ .char '}' ∉ body := by
  constructor
  · intro h
    refine ⟨placeholder?_source h, ?_⟩
    unfold placeholder? at h
    split at h
    next rest =>
      split at h
      · dsimp only at h
        split at h
        · simp at h
        next hbody =>
          obtain ⟨rfl, -⟩ : rest.takeWhile isInner = body ∧ _ = after := by simpa using h
          refine ⟨by simpa using hbody, fun hclosing => ?_⟩
          simpa [isInner] using List.all_eq_true.mp List.all_takeWhile _ hclosing
      · simp at h
    · simp at h
  · rintro ⟨rfl, hbody, hclosing⟩
    have hinner : ∀ s ∈ body, isInner s = true := fun s hs => by
      simpa [isInner] using fun heq : s = .char '}' => hclosing (heq ▸ hs)
    simp [placeholder?, Piece.source, List.takeWhile_append_of_pos hinner,
      List.dropWhile_append_of_pos hinner, isInner, hbody]

/-- The empty text has no pieces. -/
theorem pieces_nil : pieces [] = [] := by
  rw [pieces]
  rfl

/-- A text that begins with a placeholder has it as its first piece. -/
theorem pieces_of_placeholder (h : placeholder? text = some (body, after)) :
    pieces text = .placeholder body :: pieces after := by
  rw [pieces]
  split
  next body' after' h' =>
    obtain ⟨rfl, rfl⟩ : body = body' ∧ after = after' := by simpa using h.symm.trans h'
    rfl
  next hnone => simp [h] at hnone

/-- A text that does not begin with a placeholder has its first symbol as a piece. -/
theorem pieces_of_symbol {rest : Text} (h : placeholder? (s :: rest) = none) :
    pieces (s :: rest) = .symbol s :: pieces rest := by
  rw [pieces]
  split
  next h' => simp [h] at h'
  · rfl

/-- What the braces of a placeholder may hold. -/
structure IsBody (body : Text) : Prop where
  ne_nil : body ≠ []
  closing : .char '}' ∉ body

/-- Whether a placeholder begins where a text begins. -/
def Opens (text : Text) : Prop := ∃ body after, IsBody body ∧ text = (Piece.placeholder body).source ++ after

/-- There is no placeholder at the beginning exactly if none opens there. -/
theorem placeholder?_eq_none_iff : placeholder? text = none ↔ ¬ Opens text := by
  constructor
  · rintro hnone ⟨body, after, hbody, hsource⟩
    simp [placeholder?_eq_some_iff.mpr ⟨hsource, hbody.ne_nil, hbody.closing⟩] at hnone
  · intro h
    rw [Option.eq_none_iff_forall_not_mem]
    rintro ⟨body, after⟩ hfound
    obtain ⟨hsource, hne, hclosing⟩ := placeholder?_eq_some_iff.mp hfound
    exact h ⟨body, after, ⟨hne, hclosing⟩, hsource⟩

/-- No placeholder begins within a text when something follows it. -/
def OpensNowhere (text after : Text) : Prop := ∀ rest, rest <:+ text → rest ≠ [] → ¬ Opens (rest ++ after)

/-- Where no placeholder opens, none opens later. -/
theorem OpensNowhere.of_cons (h : OpensNowhere (s :: text) after) : OpensNowhere text after :=
  fun rest hrest => h rest (hrest.trans (List.suffix_cons s text))

/-- A symbol that opens no placeholder may come before a text that opens none. -/
theorem OpensNowhere.cons (hs : ¬ Opens (s :: text ++ after)) (h : OpensNowhere text after) :
    OpensNowhere (s :: text) after := by
  intro rest hrest hne
  rcases List.suffix_cons_iff.mp hrest with rfl | hrest
  · exact hs
  · exact h rest hrest hne

/-- Nothing opens no placeholder. -/
theorem opensNowhere_nil (after : Text) : OpensNowhere [] after :=
  fun _ hrest hne => absurd (List.suffix_nil.mp hrest) hne

/-- No placeholder begins in a text without opening braces. -/
theorem opensNowhere_of_not_mem (h : .char '{' ∉ text) (after : Text) : OpensNowhere text after := by
  rintro rest hrest hne ⟨body, more, -, hsource⟩
  obtain ⟨s, tail, rfl⟩ := List.exists_cons_of_ne_nil hne
  obtain ⟨rfl, -⟩ := List.cons.inj hsource
  exact h (hrest.subset List.mem_cons_self)

/-- Where no placeholder begins there are symbols only. -/
theorem OpensNowhere.pieces_append (h : OpensNowhere text after) :
    pieces (text ++ after) = text.map .symbol ++ pieces after := by
  induction text with
  | nil => rfl
  | cons s rest ih =>
    have hnone : placeholder? (s :: (rest ++ after)) = none :=
      placeholder?_eq_none_iff.mpr (h (s :: rest) List.suffix_rfl (List.cons_ne_nil s rest))
    rw [List.cons_append, pieces_of_symbol hnone, ih h.of_cons]
    rfl

/-- A text in which no placeholder begins has symbols only. -/
theorem OpensNowhere.pieces_eq (h : OpensNowhere text []) : pieces text = text.map .symbol := by
  have hpieces := h.pieces_append
  rwa [List.append_nil, pieces_nil, List.append_nil] at hpieces

/-- A template in which every placeholder that is bound is replaced. -/
def filled (scope : Scope) (template : Text) : Text := (pieces template).flatMap (Piece.fill scope)

/-- A placeholder is filled, and then what follows it. -/
theorem filled_of_placeholder (h : placeholder? text = some (body, after)) :
    filled scope text = (Piece.placeholder body).fill scope ++ filled scope after := by
  rw [filled, pieces_of_placeholder h]
  rfl

/-- A symbol stays, and what follows it is filled. -/
theorem filled_of_symbol {rest : Text} (h : placeholder? (s :: rest) = none) :
    filled scope (s :: rest) = s :: filled scope rest := by
  rw [filled, pieces_of_symbol h]
  rfl

/-- Every text that fills a placeholder of a template is clean. -/
def FillsCleanly (scope : Scope) (template : Text) : Prop :=
  ∀ body, .placeholder body ∈ pieces template → ∀ value, scope.lookup (nameOf body) = some value → value.IsClean

/-- A scope whose values open no placeholders fills every template cleanly. -/
theorem fillsCleanly_of_isClean (hclean : scope.IsClean) (template : Text) : FillsCleanly scope template :=
  fun body _ value hvalue => hclean (nameOf body) value hvalue

/-- Behind a placeholder a template is still filled cleanly, and so was the placeholder. -/
theorem FillsCleanly.of_placeholder (hclean : FillsCleanly scope text)
    (h : placeholder? text = some (body, after)) :
    (∀ value, scope.lookup (nameOf body) = some value → value.IsClean) ∧ FillsCleanly scope after := by
  rw [FillsCleanly, pieces_of_placeholder h] at hclean
  exact ⟨hclean body List.mem_cons_self, fun other hother => hclean other (List.mem_cons_of_mem _ hother)⟩

/-- Behind a symbol a template is still filled cleanly. -/
theorem FillsCleanly.of_symbol {rest : Text} (hclean : FillsCleanly scope (s :: rest))
    (h : placeholder? (s :: rest) = none) : FillsCleanly scope rest := by
  rw [FillsCleanly, pieces_of_symbol h] at hclean
  exact fun body hbody => hclean body (List.mem_cons_of_mem _ hbody)

/-- What stands for a placeholder: a clean value, or the placeholder itself if it is not bound. -/
theorem fill_placeholder_cases (hclean : ∀ value, scope.lookup (nameOf body) = some value → value.IsClean) :
    (∃ value, scope.lookup (nameOf body) = some value ∧ value.IsClean ∧
      (Piece.placeholder body).fill scope = value) ∨
    scope.lookup (nameOf body) = none ∧
      (Piece.placeholder body).fill scope = (Piece.placeholder body).source := by
  rw [Piece.fill]
  cases hvalue : scope.lookup (nameOf body) with
  | some value => exact .inl ⟨value, rfl, hclean value hvalue, rfl⟩
  | none => exact .inr ⟨rfl, rfl⟩

/-- Where a filled template begins with a closing brace, so does the template. -/
theorem closing_of_filled (hclean : FillsCleanly scope text) {rest : Text}
    (h : filled scope text = .char '}' :: rest) :
    ∃ more, text = .char '}' :: more := by
  cases hplaceholder : placeholder? text with
  | some found =>
    obtain ⟨body, after⟩ := found
    rw [filled_of_placeholder hplaceholder] at h
    rcases fill_placeholder_cases (hclean.of_placeholder hplaceholder).1 with ⟨value, -, hvalue, hfill⟩ | ⟨-, hfill⟩
    · rw [hfill] at h
      obtain ⟨s, more, rfl⟩ := List.exists_cons_of_ne_nil hvalue.ne_nil
      obtain ⟨rfl, -⟩ := List.cons.inj h
      exact absurd List.mem_cons_self hvalue.closing
    · rw [hfill] at h
      exact absurd (List.cons.inj h).1 (by decide)
  | none =>
    cases text with
    | nil => simp [filled, pieces_nil] at h
    | cons s more =>
      rw [filled_of_symbol hplaceholder] at h
      obtain ⟨rfl, -⟩ := List.cons.inj h
      exact ⟨more, rfl⟩

/-- Where a filled template goes on to closing braces, so does the template, and nothing is between in it only
if there is nothing between in the filled one. -/
theorem closes_of_filled (hclean : FillsCleanly scope text)
    (h : filled scope text = body ++ .char '}' :: .char '}' :: after)
    (hbody : .char '}' ∉ body) :
    ∃ body' after', text = body' ++ .char '}' :: .char '}' :: after' ∧ .char '}' ∉ body' ∧
      (body' = [] → body = []) := by
  induction htext : text.length using Nat.strongRecOn generalizing text body with
  | ind length ih =>
    cases hplaceholder : placeholder? text with
    | some found =>
      -- The placeholder closes by itself, whatever stands for it.
      obtain ⟨name, behind⟩ := found
      obtain ⟨rfl, -, hname⟩ := placeholder?_eq_some_iff.mp hplaceholder
      exact ⟨.char '{' :: .char '{' :: name, behind, by simp [Piece.source], by simpa using hname, by simp⟩
    | none =>
      cases text with
      | nil => simp [filled, pieces_nil] at h
      | cons s rest =>
        rw [filled_of_symbol hplaceholder] at h
        cases body with
        | nil =>
          obtain ⟨rfl, hrest⟩ := List.cons.inj h
          obtain ⟨more, rfl⟩ := closing_of_filled (hclean.of_symbol hplaceholder) hrest
          exact ⟨[], more, rfl, List.not_mem_nil, fun _ => rfl⟩
        | cons first body =>
          obtain ⟨rfl, hrest⟩ := List.cons.inj h
          obtain ⟨hfirst, hbody⟩ := not_or.mp (mt List.mem_cons.mpr hbody)
          obtain ⟨body', after', rfl, hbody', -⟩ :=
            ih rest.length (by simp [← htext]) (hclean.of_symbol hplaceholder) hrest hbody rfl
          exact ⟨s :: body', after', rfl, by simp [hfirst, hbody'], by simp⟩

/-- No placeholder begins in a filled template where none begins in the template. -/
theorem placeholder?_filled {rest : Text} (hclean : FillsCleanly scope rest) (h : placeholder? (s :: rest) = none) :
    placeholder? (s :: filled scope rest) = none := by
  rw [placeholder?_eq_none_iff] at h ⊢
  rintro ⟨body, after, ⟨hbody, hclosing⟩, hsource⟩
  obtain ⟨rfl, hopen⟩ := List.cons.inj hsource
  suffices ∃ body after, rest = .char '{' :: body ++ .char '}' :: .char '}' :: after ∧ body ≠ [] ∧
      .char '}' ∉ body by
    obtain ⟨body', after', rfl, hbody', hclosing'⟩ := this
    exact h ⟨body', after', ⟨hbody', hclosing'⟩, by simp [Piece.source]⟩
  cases hplaceholder : placeholder? rest with
  | some found =>
    obtain ⟨name, behind⟩ := found
    obtain ⟨rfl, -, hname⟩ := placeholder?_eq_some_iff.mp hplaceholder
    exact ⟨.char '{' :: name, behind, by simp [Piece.source], by simp, by simpa using hname⟩
  | none =>
    cases rest with
    | nil => simp [filled, pieces_nil] at hopen
    | cons t rest =>
      rw [filled_of_symbol hplaceholder] at hopen
      obtain ⟨rfl, hrest⟩ := List.cons.inj hopen
      have hcloses : filled scope rest = body ++ .char '}' :: .char '}' :: after := by simpa using hrest
      obtain ⟨body', after', rfl, hclosing', hbody'⟩ :=
        closes_of_filled (hclean.of_symbol hplaceholder) hcloses hclosing
      exact ⟨body', after', rfl, fun hnil => hbody (hbody' hnil), hclosing'⟩

/-- The pieces of what stands for a piece. -/
def Piece.settle (scope : Scope) : Piece → List Piece
  | symbol s => [symbol s]
  | placeholder body =>
    match scope.lookup (nameOf body) with
    | some value => value.map symbol
    | none => [placeholder body]

/-- Filling a template makes symbols of the placeholders that are bound and leaves all other pieces. -/
theorem pieces_filled {template : Text} (hclean : FillsCleanly scope template) :
    pieces (filled scope template) = (pieces template).flatMap (Piece.settle scope) := by
  induction hlength : template.length using Nat.strongRecOn generalizing template with
  | ind length ih =>
    cases hplaceholder : placeholder? template with
    | some found =>
      obtain ⟨body, after⟩ := found
      obtain ⟨hvalues, hbehind⟩ := hclean.of_placeholder hplaceholder
      have hafter := ih after.length (hlength ▸ placeholder?_length hplaceholder) hbehind rfl
      rw [filled_of_placeholder hplaceholder, pieces_of_placeholder hplaceholder, List.flatMap_cons, ← hafter,
        Piece.settle]
      rcases fill_placeholder_cases hvalues with ⟨value, hbound, hvalue, hfill⟩ | ⟨hunbound, hfill⟩
      · rw [hfill, hbound, (opensNowhere_of_not_mem hvalue.opening _).pieces_append]
      · obtain ⟨-, hbody, hclosing⟩ := placeholder?_eq_some_iff.mp hplaceholder
        rw [hfill, hunbound, pieces_of_placeholder (placeholder?_eq_some_iff.mpr ⟨rfl, hbody, hclosing⟩)]
        rfl
    | none =>
      cases template with
      | nil => simp [filled, pieces_nil]
      | cons s rest =>
        have hclean := hclean.of_symbol hplaceholder
        have hrest := ih rest.length (by simp [← hlength]) hclean rfl
        rw [filled_of_symbol hplaceholder, pieces_of_symbol hplaceholder,
          pieces_of_symbol (placeholder?_filled hclean hplaceholder), hrest]
        rfl

/-- A placeholder that is left in a filled template is one of the template, and it is not bound. -/
theorem placeholder_mem_pieces_filled {template : Text} (hclean : FillsCleanly scope template)
    (h : .placeholder body ∈ pieces (filled scope template)) :
    .placeholder body ∈ pieces template ∧ scope.value? (nameOf body) = none := by
  rw [pieces_filled hclean] at h
  obtain ⟨piece, hpiece, hsettled⟩ := List.mem_flatMap.mp h
  cases piece with
  | symbol s => simp [Piece.settle] at hsettled
  | placeholder other =>
    rw [Piece.settle] at hsettled
    cases hlookup : scope.lookup (nameOf other) with
    | some value => simp [hlookup] at hsettled
    | none =>
      obtain rfl : body = other := by simpa [hlookup] using hsettled
      exact ⟨hpiece, by simpa [Scope.lookup] using hlookup⟩

variable {ε : Type} {fault : WriteFault → ε}

/-- Only placeholders ask for values. -/
theorem forall_isWritable_iff {template : Text} : (∀ piece ∈ pieces template, piece.isWritable scope = true) ↔
    ∀ body, .placeholder body ∈ pieces template → scope.isWritable (nameOf body) = true := by
  constructor
  · exact fun h body hbody => h (.placeholder body) hbody
  · intro h piece hpiece
    cases piece with
    | symbol s => rfl
    | placeholder body => exact h body hpiece

/-- A template that asks only for values that can be written is filled. -/
theorem complete_of_writable (fault : WriteFault → ε) {template : Text}
    (h : ∀ piece ∈ pieces template, piece.isWritable scope = true) :
    complete fault scope template = fill scope template := by
  rw [complete, if_pos (List.all_eq_true.mpr h)]

/-- A template is filled exactly if all values that it asks for can be written. -/
theorem complete_eq_ok_iff {template line : Text} : (complete fault scope template).outcome = .ok line ↔
    (∀ piece ∈ pieces template, piece.isWritable scope = true) ∧ line = filled scope template := by
  by_cases h : ∀ piece ∈ pieces template, piece.isWritable scope = true
  · rw [complete_of_writable fault h, and_iff_right h]
    exact ⟨fun heq => (Except.ok.inj heq).symm, fun heq => congrArg Except.ok heq.symm⟩
  · rw [complete, if_neg (mt List.all_eq_true.mp h)]
    simp [h]

/-- What a template is filled with is its filling. -/
theorem complete_eq_filled {template line : Text} (h : (complete fault scope template).outcome = .ok line) :
    line = filled scope template := (complete_eq_ok_iff.mp h).2

/-- What is reported when a template is filled. -/
theorem log_of_complete {template line : Text} (h : (complete fault scope template).outcome = .ok line) :
    (complete fault scope template).log =
      ((pieces template).filterMap (Piece.unbound? scope)).map unboundWarning := by
  rw [complete_of_writable fault (complete_eq_ok_iff.mp h).1]
  rfl

/-- A text whose placeholders are not bound is left as it is. -/
theorem complete_of_unbound (fault : WriteFault → ε) {text : Text}
    (h : ∀ body, .placeholder body ∈ pieces text → scope.value? (nameOf body) = none) :
    (complete fault scope text).outcome = .ok text := by
  have hwritable : ∀ body, .placeholder body ∈ pieces text → scope.isWritable (nameOf body) = true := by
    intro body hbody
    simp [Scope.isWritable, h body hbody]
  have hfill : ∀ piece ∈ pieces text, piece.fill scope = piece.source := by
    intro piece hpiece
    cases piece with
    | symbol s => rfl
    | placeholder body => simp [Piece.fill, Scope.lookup, h body hpiece]
  have hsource : filled scope text = text := by
    rw [filled, List.flatMap, List.map_congr_left hfill]
    exact source_pieces text
  exact complete_eq_ok_iff.mpr ⟨forall_isWritable_iff.mpr hwritable, hsource.symm⟩

end Template
end TestPlan
