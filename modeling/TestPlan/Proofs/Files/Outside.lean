import Mathlib.Data.List.Induction
import TestPlan.Proofs.Files.Change
import TestPlan.Proofs.Files.Listing

/-!
# Outside changes

If changes only happen behind some names of a directory, all places elsewhere look as before, the directory has the
same other names, and what was a directory still is one (`Disk.SameOutside`). One change keeps this, and so does any
number of them (`Disk.sameOutside_after`).

The other entries of the directory, and the entries in these, are then answered for as before
(`Disk.SameOutside.alike_entry`, `Disk.SameOutside.alike_entry_entry`): the way to them leads through directories
only, and these do not go away.
-/

namespace TestPlan

/-- A walk that leads to a directory still does where no directory has gone away. -/
theorem walk_to_directory {look other : List FileName → Option Sight} {place found names : List FileName}
    {rest : List Text}
    (hdirectories : ∀ place names, look place = some (.directory names) →
      ∃ more, other place = some (.directory more))
    (hlisted : ∀ place name sight, other (place ++ [name]) = some sight →
      ∃ siblings, other place = some (.directory siblings) ∧ name ∈ siblings)
    (h : walk look place rest = .ok found) (hfound : look found = some (.directory names)) :
    walk other place rest = .ok found ∧ ∃ own, look place = some (.directory own) := by
  induction rest generalizing place with
  | nil =>
    obtain rfl := Except.ok.inj h
    exact ⟨rfl, names, hfound⟩
  | cons name rest ih =>
    rw [walk] at h
    split at h
    next own hown =>
      obtain ⟨more, hmore⟩ := hdirectories place own hown
      refine ⟨?_, own, hown⟩
      rw [walk, hmore]
      dsimp only
      split at h
      next hup => rw [if_pos hup, (ih h).1]
      next hup =>
        split at h
        · simp at h
        next hlong =>
          split at h
          · obtain ⟨hwalk, inner, hinner⟩ := ih h
            -- The walk goes on through a directory, which is still there under its name.
            obtain ⟨still, hstill⟩ := hdirectories _ inner hinner
            obtain ⟨siblings, hsiblings, hmem⟩ := hlisted place _ _ hstill
            obtain rfl : more = siblings := Sight.directory.inj (Option.some.inj (hmore.symm.trans hsiblings))
            rw [if_neg hup, if_neg hlong, if_pos hmem, hwalk]
          · simp at h
    · simp at h

namespace Disk

variable {disk other last : Disk} {root : List FileName} {inside : FileName → Prop}

/-- What two disks have in common if one comes from the other by changes behind some names of a directory. -/
structure SameOutside (disk other : Disk) (root : List FileName) (inside : FileName → Prop) : Prop where
  current : other.current = disk.current
  siblings : ∃ siblings more, disk.look root = some (.directory siblings) ∧
    other.look root = some (.directory more) ∧
    ∀ name, ¬ inside name → (name ∈ siblings ↔ name ∈ more)
  same : ∀ place, place ≠ root → (∀ name rest, inside name → place ≠ root ++ name :: rest) →
    other.look place = disk.look place
  directories : ∀ place names, disk.look place = some (.directory names) →
    ∃ more, other.look place = some (.directory more)

namespace SameOutside

/-- Without changes everything is the same. -/
theorem refl {siblings : List FileName} (h : disk.look root = some (.directory siblings)) :
    SameOutside disk disk root inside :=
  ⟨rfl, ⟨siblings, siblings, h, h, fun _ _ => Iff.rfl⟩, fun _ _ _ => rfl, fun _ names hnames => ⟨names, hnames⟩⟩

/-- What is the same after some changes and after the following ones is the same after all of them. -/
theorem trans (h : SameOutside disk other root inside) (h' : SameOutside other last root inside) :
    SameOutside disk last root inside := by
  obtain ⟨siblings, between, hsiblings, hbetween, hfirst⟩ := h.siblings
  obtain ⟨middle, more, hmiddle, hmore, hsecond⟩ := h'.siblings
  obtain rfl : between = middle := Sight.directory.inj (Option.some.inj (hbetween.symm.trans hmiddle))
  refine ⟨h'.current.trans h.current,
    ⟨siblings, more, hsiblings, hmore, fun name hname => (hfirst name hname).trans (hsecond name hname)⟩,
    fun place hplace hinside => (h'.same place hplace hinside).trans (h.same place hplace hinside), ?_⟩
  intro place names hnames
  obtain ⟨still, hstill⟩ := h.directories place names hnames
  exact h'.directories place still hstill

end SameOutside

/-- A change behind one of the names leaves everything outside as it is. -/
theorem IsChangedAt.sameOutside {parent rest : List FileName} {name first : FileName} {siblings : List FileName}
    (h : IsChangedAt disk other parent name) (hroot : disk.look root = some (.directory siblings))
    (hplace : parent ++ [name] = root ++ first :: rest) (hfirst : inside first) :
    SameOutside disk other root inside := by
  obtain ⟨own, more, hown, hmore, hothers⟩ := h.siblings
  have hentry : root ≠ parent ++ [name] := fun heq => by
    have hlength := congrArg List.length (heq.trans hplace)
    simp at hlength
  refine ⟨h.current, ?_, fun place hne hinside => ?_, fun place names hnames => ?_⟩
  · by_cases hparent : root = parent
    · subst hparent
      obtain ⟨rfl, rfl⟩ : name = first ∧ [] = rest := by simpa using hplace
      exact ⟨own, more, hown, hmore, fun sibling hsibling => hothers sibling fun heq => hsibling (heq ▸ hfirst)⟩
    · exact ⟨siblings, siblings, hroot, (h.same root hentry hparent).trans hroot, fun _ _ => Iff.rfl⟩
  · refine h.same place (hplace ▸ hinside first rest hfirst) fun heq => ?_
    subst heq
    -- The directory of what is changed is the root, or it is inside.
    rcases List.eq_nil_or_concat rest with rfl | ⟨front, last, rfl⟩
    · exact hne (List.append_inj_left' hplace rfl)
    · have hlast : place ++ [name] = (root ++ first :: front) ++ [last] := by simpa using hplace
      exact hinside first front hfirst (List.append_inj_left' hlast rfl)
  · by_cases hchanged : place = parent ++ [name]
    · exact absurd hnames (hchanged ▸ h.entry names)
    · by_cases hparent : place = parent
      · exact ⟨more, hparent ▸ hmore⟩
      · exact ⟨names, (h.same place hchanged hparent).trans hnames⟩

/-- Where changes lead does not depend on changes. -/
theorem SameOutside.target (h : SameOutside disk other root inside) (path : Path) :
    other.target path = disk.target path := by
  rw [Disk.target, Disk.target, fromRoot, fromRoot, h.current]

/-- Changes behind some names of a directory leave everything outside as it is. -/
theorem sameOutside_after {siblings : List FileName} (hroot : disk.look root = some (.directory siblings))
    {changes : List FileChange} (h : ∀ change ∈ changes, ∃ name rest, inside name ∧
      disk.target change.path = root ++ name :: rest) : SameOutside disk (disk.after changes) root inside := by
  induction changes using List.reverseRecOn with
  | nil => exact .refl hroot
  | append_singleton front change ih =>
    have hfront := ih fun earlier hearlier => h earlier (List.mem_append_left _ hearlier)
    obtain ⟨name, rest, hname, htarget⟩ := h change (List.mem_append_right _ (List.mem_singleton_self change))
    rw [← hfront.target] at htarget
    rw [after, List.foldl_append]
    change SameOutside disk ((change.apply (disk.after front)).toOption.getD (disk.after front)) root inside
    cases hchange : change.apply (disk.after front) with
    | error e => exact hfront
    | ok changed =>
      obtain ⟨-, more, -, hmore, -⟩ := hfront.siblings
      obtain ⟨parent, last, hlast⟩ : ∃ parent last, root ++ name :: rest = parent ++ [last] := by
        obtain hnil | ⟨parent, last, hlast⟩ := List.eq_nil_or_concat (root ++ name :: rest)
        · simp at hnil
        · exact ⟨parent, last, by simpa using hlast⟩
      have hchanged := FileChange.isChangedAt hchange (htarget.trans hlast)
      exact hfront.trans (hchanged.sameOutside hmore hlast.symm hname)

namespace SameOutside

variable {path : Path} {name : Text}

/-- The directory behind whose names changes happen is where it was. -/
theorem walk_root (h : SameOutside disk other root inside) (hroot : disk.find path = .ok root) :
    walk other.look [] (other.fromRoot path) = .ok root := by
  obtain ⟨siblings, -, hsiblings, -⟩ := h.siblings
  have hsame : other.fromRoot path = disk.fromRoot path := by rw [fromRoot, fromRoot, h.current]
  rw [hsame]
  exact (walk_to_directory h.directories (fun _ _ _ => exists_siblings) (walk_of_find_ok hroot) hsiblings).1

/-- Its other entries look as before, and so does what is in them. -/
theorem look_entry (h : SameOutside disk other root inside) {entry : FileName} (hentry : ¬ inside entry)
    (rest : List FileName) : other.look (root ++ entry :: rest) = disk.look (root ++ entry :: rest) := by
  refine h.same _ (by simp) fun changed more hchanged heq => hentry ?_
  obtain ⟨rfl, -⟩ : entry = changed ∧ rest = more := by simpa using heq
  exact hchanged

/-- The way to another entry goes as before. -/
theorem walk_entry (h : SameOutside disk other root inside) (hroot : disk.find path = .ok root)
    (hname : ¬ inside (FileName.ofText name)) :
    walk other.look [] (other.fromRoot (path.entry name)) =
      walk disk.look [] (disk.fromRoot (path.entry name)) := by
  obtain ⟨siblings, more, hsiblings, hmore, hothers⟩ := h.siblings
  rw [fromRoot_entry, fromRoot_entry, walk_append, walk_append, h.walk_root hroot, walk_of_find_ok hroot]
  exact (walk_cons_congr hsiblings hmore (hothers _ hname) fun _ => rfl).symm

/-- Another entry is where its name leads. -/
theorem place_of_walk_entry (hroot : disk.find path = .ok root) (hup : name ≠ "..") {place : List FileName}
    (h : walk disk.look [] (disk.fromRoot (path.entry name)) = .ok place) :
    place = root ++ [FileName.ofText name] := by
  rw [← walk_eq_ok h, fromRoot_entry, List.foldl_append, walk_eq_ok (walk_of_find_ok hroot), List.foldl_cons,
    List.foldl_nil, advance, if_neg hup]

/-- Another entry is answered for as before. -/
theorem alike_entry (h : SameOutside disk other root inside) (hroot : disk.find path = .ok root)
    (hname : ¬ inside (FileName.ofText name)) (hup : name ≠ "..") : Alike disk other (path.entry name) := by
  have hfind := find_congr_of_walk (h.walk_entry hroot hname)
  cases hown : disk.find (path.entry name) with
  | error obstacle => exact alike_of_find_error hown (hfind.trans hown) Iff.rfl
  | ok place =>
    obtain ⟨tree, -, htree⟩ := entry?_of_find_ok hown
    obtain rfl := place_of_walk_entry hroot hup (walk_of_find_ok hown)
    exact alike_of_find_ok hown (hfind.trans hown) htree ((h.look_entry hname []).trans htree) (.inl rfl)

/-- The names in another entry are as before. -/
theorem namesIn_entry (h : SameOutside disk other root inside) (hroot : disk.find path = .ok root)
    (hname : ¬ inside (FileName.ofText name)) (hup : name ≠ "..") :
    other.namesIn (path.entry name) = disk.namesIn (path.entry name) := by
  rw [namesIn_eq, namesIn_eq, find_congr_of_walk (h.walk_entry hroot hname)]
  cases hown : disk.find (path.entry name) with
  | error obstacle => rfl
  | ok place =>
    obtain rfl := place_of_walk_entry hroot hup (walk_of_find_ok hown)
    simp only [h.look_entry hname []]

/-- What is in another entry is answered for as before. -/
theorem alike_entry_entry (h : SameOutside disk other root inside) (hroot : disk.find path = .ok root)
    (hname : ¬ inside (FileName.ofText name)) (hup : name ≠ "..") (inner : Text) :
    Alike disk other ((path.entry name).entry inner) := by
  have hlook := h.look_entry hname
  have hwalk : walk other.look [] (other.fromRoot ((path.entry name).entry inner)) =
      walk disk.look [] (disk.fromRoot ((path.entry name).entry inner)) := by
    rw [other.fromRoot_entry (path.entry name), disk.fromRoot_entry (path.entry name), walk_append, walk_append,
      h.walk_entry hroot hname]
    cases hown : walk disk.look [] (disk.fromRoot (path.entry name)) with
    | error obstacle => rfl
    | ok place =>
      obtain rfl := place_of_walk_entry hroot hup hown
      change walk other.look _ [inner] = walk disk.look _ [inner]
      simp only [walk, hlook []]
  have hfind := find_congr_of_walk hwalk
  cases hown : disk.find ((path.entry name).entry inner) with
  | error obstacle => exact alike_of_find_error hown (hfind.trans hown) Iff.rfl
  | ok names =>
    obtain ⟨place, hplace, hcases⟩ := walk_of_find_entry hown
    obtain rfl := place_of_walk_entry hroot hup hplace
    rcases hcases with ⟨-, rfl⟩ | ⟨-, rfl⟩
    · -- The way up leads back to the directory.
      obtain ⟨siblings, more, hsiblings, hmore, -⟩ := h.siblings
      rw [List.dropLast_concat] at hown
      exact alike_of_find_ok hown (hfind.trans hown) hsiblings hmore (.inr ⟨rfl, rfl⟩)
    · obtain ⟨tree, -, htree⟩ := entry?_of_find_ok hown
      rw [List.append_assoc, List.singleton_append] at hown htree
      exact alike_of_find_ok hown (hfind.trans hown) htree ((hlook _).trans htree) (.inl rfl)

end SameOutside
end Disk
end TestPlan
