import Mathlib.Data.List.Induction
import Mathlib.Data.List.Nodup
import TestPlan.EnvProfile
import TestPlan.Proofs.Text.Lines

/-!
# Profiles over profiles

Assignments are made one after the other, and what has come of them can be told by the variables in their order
and the value that each of them has (`EnvProfile.eq_of_lookup`). For an overlay these are told by its two
profiles (`EnvProfile.names_overlay`, `EnvProfile.lookup_overlay`), so making the assignments of a profile again
is making the ones that it came from, and an overlay can be written down without making any of them
(`EnvProfile.overlay_eq_updatedBy`). Texts one after the other, with a line end between them, describe the overlay
of what they describe (`EnvProfile.ofText_append_newline`).
-/

namespace TestPlan.EnvProfile

variable {profile other below above : EnvProfile} {name value : Text}

/-- The variables of a profile, in order. -/
def names (profile : EnvProfile) : List Text := profile.map (·.1)

/-- A variable is found at its first assignment. -/
theorem lookup_cons (asked name value : Text) (rest : EnvProfile) :
    List.lookup asked ((name, value) :: rest) = if asked = name then some value else rest.lookup asked := by
  rw [List.lookup_cons]
  by_cases h : asked = name
  · simp [h]
  · simp [h, beq_eq_false_iff_ne.mpr h]

/-- A new variable comes last. -/
theorem assign_of_new (h : name ∉ profile.names) (value : Text) :
    profile.assign name value = profile ++ [(name, value)] := by
  induction profile with
  | nil => rfl
  | cons entry rest ih =>
    obtain ⟨hentry, hrest⟩ := not_or.mp (mt List.mem_cons.mpr h)
    rw [assign, if_neg (Ne.symm hentry), ih hrest, List.cons_append]

/-- A variable that is there keeps its place. -/
theorem names_assign_of_mem (h : name ∈ profile.names) (value : Text) :
    (profile.assign name value).names = profile.names := by
  induction profile with
  | nil => exact absurd h List.not_mem_nil
  | cons entry rest ih =>
    rw [assign]
    split
    · rfl
    next hentry =>
      have hrest : name ∈ names rest := (List.mem_cons.mp h).resolve_left (Ne.symm hentry)
      exact congrArg (List.cons entry.1) (ih hrest)

/-- An assignment keeps the place of a name that is there, and puts a new one at the end. -/
theorem names_assign (profile : EnvProfile) (name value : Text) : (profile.assign name value).names =
    if name ∈ profile.names then profile.names else profile.names ++ [name] := by
  split
  next h => exact names_assign_of_mem h value
  next h => rw [assign_of_new h, names, List.map_append]; rfl

/-- An assigned variable has its value, and the others have theirs. -/
theorem lookup_assign (profile : EnvProfile) (name value asked : Text) :
    (profile.assign name value).lookup asked = if asked = name then some value else profile.lookup asked := by
  induction profile with
  | nil => exact lookup_cons asked name value []
  | cons entry rest ih =>
    obtain ⟨first, own⟩ := entry
    rw [assign, lookup_cons]
    split
    next hfirst =>
      rw [lookup_cons, hfirst]
      split <;> rfl
    next hfirst =>
      rw [lookup_cons, ih]
      split
      next hasked => rw [if_neg fun h => hfirst (hasked.symm.trans h)]
      next => rfl

/-- What is assigned in a profile was assigned before or has just been. -/
theorem mem_of_mem_assign {entry : Text × Text} (h : entry ∈ profile.assign name value) :
    entry = (name, value) ∨ entry ∈ profile := by
  induction profile with
  | nil => exact .inl (List.mem_singleton.mp h)
  | cons first rest ih =>
    rw [assign] at h
    split at h
    next hfirst =>
      rcases List.mem_cons.mp h with rfl | h
      · exact .inl (by rw [hfirst])
      · exact .inr (List.mem_cons_of_mem _ h)
    next =>
      rcases List.mem_cons.mp h with rfl | h
      · exact .inr List.mem_cons_self
      · exact (ih h).imp_right (List.mem_cons_of_mem _)

/-- What is assigned in an overlay is assigned in one of its profiles. -/
theorem mem_of_mem_overlay {entry : Text × Text} (h : entry ∈ overlay below above) :
    entry ∈ below ∨ entry ∈ above := by
  induction above generalizing below with
  | nil => exact .inl h
  | cons first rest ih =>
    rcases ih h with h | h
    · rcases mem_of_mem_assign h with rfl | h
      · exact .inr List.mem_cons_self
      · exact .inl h
    · exact .inr (List.mem_cons_of_mem _ h)

/-- The last assignment of an overlay is made last. -/
theorem overlay_append_singleton (below front : EnvProfile) (name value : Text) :
    overlay below (front ++ [(name, value)]) = (overlay below front).assign name value := overlay_append _ _ _

/-- The variables of the lower profile keep their places, and those that only the upper one has follow. -/
theorem names_overlay (below above : EnvProfile) : (overlay below above).names =
    below.names ++ (overlay [] above).names.filter fun name => name ∉ below.names := by
  induction above using List.reverseRecOn with
  | nil => exact (List.append_nil _).symm
  | append_singleton front entry ih =>
    obtain ⟨name, value⟩ := entry
    rw [overlay_append_singleton, overlay_append_singleton, names_assign, names_assign, ih]
    by_cases hbelow : name ∈ below.names <;> by_cases habove : name ∈ (overlay [] front).names <;>
      simp [hbelow, habove]

/-- A variable has the value of the upper profile, and that of the lower one if it is not in the upper one. -/
theorem lookup_overlay (below above : EnvProfile) (asked : Text) : (overlay below above).lookup asked =
    ((overlay [] above).lookup asked).or (below.lookup asked) := by
  induction above using List.reverseRecOn with
  | nil => rfl
  | append_singleton front entry ih =>
    obtain ⟨name, value⟩ := entry
    rw [overlay_append_singleton, overlay_append_singleton, lookup_assign, lookup_assign, ih]
    split <;> rfl

/-- No name is twice in a profile without names. -/
theorem nodup_names_nil : (names []).Nodup := List.nodup_nil

/-- An assignment brings in no name for the second time. -/
theorem nodup_names_assign (h : profile.names.Nodup) (name value : Text) :
    (profile.assign name value).names.Nodup := by
  rw [names_assign]
  split
  next => exact h
  next hnew =>
    refine List.nodup_append.mpr ⟨h, List.nodup_singleton name, ?_⟩
    rintro other hother last hlast rfl
    exact hnew (List.mem_singleton.mp hlast ▸ hother)

/-- An overlay assigns to no variable twice if the lower profile does not. -/
theorem nodup_names_overlay (h : below.names.Nodup) (above : EnvProfile) : (overlay below above).names.Nodup := by
  induction above generalizing below with
  | nil => exact h
  | cons entry rest ih => exact ih (nodup_names_assign h entry.1 entry.2)

/-- A profile that assigns to no variable twice is what comes of its assignments. -/
theorem overlay_nil (h : profile.names.Nodup) : overlay [] profile = profile := by
  induction profile using List.reverseRecOn with
  | nil => rfl
  | append_singleton front entry ih =>
    obtain ⟨name, value⟩ := entry
    rw [names, List.map_append] at h
    obtain ⟨hfront, -, hnew⟩ := List.nodup_append.mp h
    rw [overlay_append_singleton, ih hfront]
    exact assign_of_new (fun hmem => hnew name hmem name List.mem_cons_self rfl) value

/-- Exactly the names of a profile have a value in it. -/
theorem lookup_eq_none_iff {name : Text} : profile.lookup name = none ↔ name ∉ profile.names := by
  induction profile with
  | nil => simp [names, List.lookup_nil]
  | cons entry rest ih =>
    obtain ⟨first, own⟩ := entry
    have hmem : name ∈ names ((first, own) :: rest) ↔ name = first ∨ name ∈ names rest := List.mem_cons
    rw [lookup_cons, hmem]
    split
    next h => simp [h]
    next h => rw [ih, or_iff_right h]

/-- A profile that assigns to no variable twice is told by its variables and their values. -/
theorem eq_of_lookup (h : profile.names.Nodup) (hnames : profile.names = other.names)
    (hlookup : ∀ name, profile.lookup name = other.lookup name) : profile = other := by
  induction profile generalizing other with
  | nil => exact (List.map_eq_nil_iff.mp hnames.symm).symm
  | cons entry rest ih =>
    obtain ⟨name, value⟩ := entry
    obtain ⟨hnew, hrest⟩ := List.nodup_cons.mp h
    obtain ⟨⟨first, own⟩, more, rfl⟩ : ∃ entry more, other = entry :: more := by
      cases other with
      | nil => simp [names] at hnames
      | cons entry more => exact ⟨entry, more, rfl⟩
    obtain ⟨rfl, hmore⟩ : name = first ∧ names rest = names more := List.cons.inj hnames
    have hvalue := hlookup name
    rw [lookup_cons, lookup_cons, if_pos rfl, if_pos rfl] at hvalue
    obtain rfl := Option.some.inj hvalue
    refine congrArg (List.cons (name, value)) (ih hrest hmore fun asked => ?_)
    by_cases hasked : asked = name
    · subst hasked
      rw [lookup_eq_none_iff.mpr hnew, lookup_eq_none_iff.mpr (hmore ▸ hnew)]
    · have hown := hlookup asked
      rwa [lookup_cons, lookup_cons, if_neg hasked, if_neg hasked] at hown

/-- Making the assignments that have come of others is making the others. -/
theorem overlay_overlay_nil (h : below.names.Nodup) (above : EnvProfile) :
    overlay below (overlay [] above) = overlay below above := by
  have hagain : overlay [] (overlay [] above) = overlay [] above :=
    overlay_nil (nodup_names_overlay nodup_names_nil above)
  apply eq_of_lookup (nodup_names_overlay h _)
  · rw [names_overlay, hagain, ← names_overlay]
  · intro asked
    rw [lookup_overlay, hagain, ← lookup_overlay]

/-- A profile with the values of another one: a variable of both keeps its place, and those that only the other
one has follow. -/
def updatedBy (below above : EnvProfile) : EnvProfile :=
  (below.map fun entry => (entry.1, (above.lookup entry.1).getD entry.2)) ++
    above.filter fun entry => entry.1 ∉ below.names

/-- The names of the profile above come behind those that the one below has already. -/
theorem names_updatedBy (below above : EnvProfile) :
    (below.updatedBy above).names = below.names ++ above.names.filter fun name => name ∉ below.names := by
  simp [updatedBy, names, List.filter_map, Function.comp_def]

/-- A change of all values changes the value that is found. -/
theorem lookup_map (change : Text → Text → Text) (profile : EnvProfile) (asked : Text) :
    (profile.map fun entry => (entry.1, change entry.1 entry.2)).lookup asked =
      (profile.lookup asked).map (change asked) := by
  induction profile with
  | nil => rfl
  | cons entry rest ih =>
    rw [List.map_cons, lookup_cons, lookup_cons, ih]
    split
    next h => rw [h, Option.map_some]
    next => rfl

/-- Names that are left out have no part in the value of one that stays. -/
theorem lookup_filter (keeps : Text → Bool) {asked : Text} (h : keeps asked = true) (profile : EnvProfile) :
    (profile.filter fun entry => keeps entry.1).lookup asked = profile.lookup asked := by
  induction profile with
  | nil => rfl
  | cons entry rest ih =>
    rw [List.filter_cons, lookup_cons]
    split
    next => rw [lookup_cons, ih]
    next hentry =>
      rw [ih, if_neg]
      rintro rfl
      exact hentry h

/-- The value of the profile above counts, where it has one. -/
theorem lookup_updatedBy (below above : EnvProfile) (asked : Text) :
    (below.updatedBy above).lookup asked = (above.lookup asked).or (below.lookup asked) := by
  rw [updatedBy, List.lookup_append, lookup_map fun name value => (above.lookup name).getD value]
  cases hbelow : below.lookup asked with
  | some value => cases above.lookup asked <;> rfl
  | none =>
    have hnew := lookup_eq_none_iff.mp hbelow
    rw [Option.map_none, Option.none_or, Option.or_none]
    exact lookup_filter (fun name => name ∉ below.names) (by simpa using hnew) above

/-- An overlay is the lower profile with the values of the upper one. -/
theorem overlay_eq_updatedBy (hbelow : below.names.Nodup) (habove : above.names.Nodup) :
    overlay below above = below.updatedBy above := by
  apply eq_of_lookup (nodup_names_overlay hbelow above)
  · rw [names_overlay, overlay_nil habove, names_updatedBy]
  · intro asked
    rw [lookup_overlay, overlay_nil habove, lookup_updatedBy]

/-- A text describes a profile that assigns to no variable twice. -/
theorem nodup_names_ofText (text : Text) : (ofText text).names.Nodup := nodup_names_overlay nodup_names_nil _

/-- An empty line assigns nothing. -/
theorem assignment?_nil : assignment? [] = none := rfl

/-- Two texts with a line end between them describe what the first one does, with the assignments of the second
one made after it: a variable of both keeps its place from the first and takes its value from the second, the
variables that only the second one has follow in their order, and nothing else changes. -/
theorem ofText_append_newline {newline : Text} (hend : Text.IsLineEnd newline) (first second : Text) :
    ofText (first ++ newline ++ second) = overlay (ofText first) (ofText second) ∧
    overlay (ofText first) (ofText second) = (ofText first).updatedBy (ofText second) := by
  constructor
  · rw [ofText, Text.filterMap_lines_append assignment?_nil hend, overlay_append]
    exact (overlay_overlay_nil (nodup_names_ofText first) _).symm
  · exact overlay_eq_updatedBy (nodup_names_ofText first) (nodup_names_ofText second)

/-- A variable of both texts and one that only the second one assigns to, twice. The first text ends with a carriage
return, which makes one line end with the line feed between the texts. -/
theorem ofText_append_newline_of_shared :
    let first : Text := "A=1\nB=2\r"
    let second : Text := "\nC=3\nA=4\nC=5"
    let profile : EnvProfile := [("A", "4"), ("B", "2"), ("C", "5")]
    Text.IsLineEnd "\n" ∧ ofText (first ++ "\n" ++ second) = profile := by
  intro first second profile
  have hend : Text.IsLineEnd "\n" := .inl ⟨.char '\n', rfl, rfl⟩
  obtain ⟨hoverlay, hupdated⟩ := ofText_append_newline hend first second
  have hprofile : (ofText first).updatedBy (ofText second) = profile := by decide +kernel
  exact ⟨hend, hoverlay.trans (hupdated.trans hprofile)⟩

end TestPlan.EnvProfile
