import TestPlan.Proofs.Files.Listing
import TestPlan.Proofs.Text.Pieces

/-!
# Names in written paths

A path is written with slashes between its names, so a name that is written behind a slash is read back, as long
as it is one: without slashes, not empty, and no dot (`Path.IsName`). The last name of a written path is the name
that was written last (`Path.name_ofText_text_entry`).
-/

namespace TestPlan

namespace Path

/-- A text that is a single name on a path. -/
structure IsName (name : Text) : Prop where
  ne_empty : name ≠ ""
  ne_dot : name ≠ "."
  slashless : .char '/' ∉ name

variable {name first second : Text}

/-- What a name is cut into is the name. -/
theorem cutSuffix_append (name : Text) : (cutSuffix name).1 ++ (cutSuffix name).2 = name := by
  let inTail (s : Symbol) : Bool := s != '.'
  have hsplit : name.rdropWhile inTail ++ name.rtakeWhile inTail = name := List.rdropWhile_append_rtakeWhile
  have htail : (name.reverse.takeWhile inTail).reverse = name.rtakeWhile inTail := rfl
  unfold cutSuffix
  dsimp only
  rw [htail]
  generalize name.rtakeWhile inTail = tail at hsplit
  split
  · exact List.append_nil name
  next hcut =>
    -- In front of the tail there is a dot, because the name is not all tail.
    have hne : name.rdropWhile inTail ≠ [] := by
      intro hnil
      rw [hnil, List.nil_append] at hsplit
      exact hcut (.inl (congrArg List.length hsplit))
    obtain ⟨stem, hstem⟩ : ∃ stem, name.rdropWhile inTail = stem ++ [.char '.'] := by
      refine ⟨(name.rdropWhile inTail).dropLast, ?_⟩
      have hdot : (name.rdropWhile inTail).getLast hne = .char '.' := by
        simpa [inTail] using List.rdropWhile_last_not inTail name hne
      rw [← hdot, List.dropLast_append_getLast hne]
    rw [hstem] at hsplit
    have hlength : name.length - tail.length - 1 = stem.length := by
      rw [← hsplit]
      simp only [List.length_append, List.length_singleton]
      omega
    rw [hlength]
    simp [← hsplit]

/-- A last name is its stem and its suffix. -/
theorem stem_append_suffix (path : Path) : path.stem ++ path.suffix = path.name := cutSuffix_append path.name

/-- A path that is written from a name on starts from the current directory. -/
theorem IsName.rootOf_append (h : IsName name) (rest : Text) : rootOf (name ++ rest) = .current := by
  obtain ⟨s, others, rfl⟩ := List.exists_cons_of_ne_nil h.ne_empty
  have hs : s ≠ .char '/' := fun heq => h.slashless (heq ▸ List.mem_cons_self)
  simp [rootOf, hs]

/-- A name is read as itself. -/
theorem IsName.ofText_eq (h : IsName name) : ofText name = ⟨.current, [name]⟩ := by
  have hroot : rootOf name = .current := by simpa using h.rootOf_append []
  have hsplit : Text.split (.char '/') name = [name] := by
    rw [Text.split_eq_splitOn, List.splitOn_eq_singleton h.slashless]
  simp only [ofText, hroot, hsplit]
  rw [List.filter_cons_of_pos (by simp [h.ne_empty, h.ne_dot]), List.filter_nil]

/-- What is below a directory under a name is its entry. -/
theorem IsName.below_eq (h : IsName name) (directory : Path) : directory.below name = directory.entry name := by
  rw [below, h.ofText_eq]
  rfl

end Path

end TestPlan
