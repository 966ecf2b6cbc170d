import TestPlan.Files.Tree

/-!
# What can be seen of a tree

All that reading needs to know of a tree is what can be seen at each place in it: the bytes of a file, or the
names in a directory (`FileTree.look`). Writing a file changes what is seen there and nowhere else, and
removing one takes it away and its name out of its directory (`FileTree.look_set`, `FileTree.look_remove`).

Following a path is a walk along the names that can be seen (`walk`), so it knows nothing of the bytes in files
(`walk_congr`). Without a file all walks go as with it, apart from those that lead to it or through it
(`IsWithout.walk`).
-/

namespace TestPlan

/-- What can be seen at a place: the bytes of a file, or the names in a directory. -/
inductive Sight
  | file (bytes : List UInt8)
  | directory (names : List FileName)

namespace FileTree

/-- What can be seen of an entry. -/
def sight : FileTree → Sight
  | file bytes => .file bytes
  | directory entries => .directory (entries.map (·.1))

/-- The entry to which names lead straight. -/
def at? : List FileName → FileTree → Option FileTree
  | [], tree => some tree
  | _ :: _, file _ => none
  | name :: rest, directory entries => ( entry? name entries).bind (at? rest)

/-- What can be seen where names lead straight to. -/
def look (tree : FileTree) (names : List FileName) : Option Sight := (at? names tree).map sight

variable {entries : List (FileName × FileTree)} {name other : FileName}

/-- There is an entry exactly for the names in a directory. -/
theorem entry?_isSome_iff : ( entry? name entries).isSome = true ↔ name ∈ entries.map (·.1) := by
  simp [ entry?, List.mem_map]

/-- A name is looked up in the first entry before the others. -/
theorem entry?_cons (n : FileName) (tree : FileTree) (rest : List (FileName × FileTree)) :
    entry? other ((n, tree) :: rest) = if n = other then some tree else entry? other rest := by
  by_cases h : n = other <;> simp [ entry?, h]

/-- What replaces one entry is found under its name and under no other. -/
theorem entry?_replaced (new : FileTree) :
    entry? other (entries.map fun (n, old) => if n == name then (n, new) else (n, old)) =
      ( entry? other entries).map fun old => if other = name then new else old := by
  induction entries with
  | nil => rfl
  | cons entry rest ih =>
    obtain ⟨n, old⟩ := entry
    have hhead : (if n == name then (n, new) else (n, old)) = (n, if n = name then new else old) := by
      by_cases hname : n = name <;> simp [hname]
    rw [List.map_cons]
    simp only [hhead, entry?_cons, ih]
    by_cases hother : n = other
    · simp [hother]
    · simp [hother]

/-- An entry that is set is there, and the others are as before. -/
theorem entry?_setEntry_some (h : name ∈ entries.map (·.1)) (new : FileTree) :
    entry? other (setEntry name (some new) entries) = if other = name then some new else entry? other entries := by
  have hany : (entries.any fun (n, _) => n == name) = true := by
    obtain ⟨entry, hentry, hname⟩ := List.mem_map.mp h
    exact List.any_eq_true.mpr ⟨entry, hentry, by simpa using hname⟩
  rw [setEntry, if_pos hany, entry?_replaced]
  by_cases hother : other = name
  · obtain ⟨old, hold⟩ := Option.isSome_iff_exists.mp (entry?_isSome_iff.mpr h)
    simp [hother, hold]
  · simp [hother]

/-- An entry that is taken away is not there, and the others are as before. -/
theorem entry?_setEntry_none :
    entry? other (setEntry name none entries) = if other = name then none else entry? other entries := by
  unfold setEntry
  induction entries with
  | nil => simp [ entry?]
  | cons entry rest ih =>
    obtain ⟨n, old⟩ := entry
    by_cases hname : n = name
    · rw [List.filter_cons_of_neg (by simpa using hname), ih, entry?_cons]
      by_cases hother : other = name
      · simp [hother]
      · simp [hother, hname, Ne.symm hother]
    · rw [List.filter_cons_of_pos (by simpa using hname), entry?_cons, ih, entry?_cons]
      by_cases hother : n = other
      · simp [hother, hother ▸ hname]
      · simp [hother]

/-- Setting an entry that is there leaves the names as they are. -/
theorem names_setEntry_some (h : name ∈ entries.map (·.1)) (new : FileTree) :
    (setEntry name (some new) entries).map (·.1) = entries.map (·.1) := by
  have hany : (entries.any fun (n, _) => n == name) = true := by
    obtain ⟨entry, hentry, hname⟩ := List.mem_map.mp h
    exact List.any_eq_true.mpr ⟨entry, hentry, by simpa using hname⟩
  rw [setEntry, if_pos hany, List.map_map]
  refine List.map_congr_left fun entry _ => ?_
  simp only [Function.comp_apply]
  split <;> rfl

/-- Taking an entry away takes its name out of the names. -/
theorem names_setEntry_none :
    (setEntry name none entries).map (·.1) = (entries.map (·.1)).filter (· ≠ name) := by
  rw [List.filter_map]
  refine congrArg (List.map _) (List.filter_congr fun entry _ => ?_)
  rw [Function.comp_apply, Bool.eq_iff_iff]
  simp

variable {tree : FileTree} {names others : List FileName}

/-- What can be seen in a directory can be seen in its entries. -/
theorem look_cons : (directory entries).look (name :: others) = ( entry? name entries).bind (look · others) := by
  rw [look, at?, Option.map_bind]
  rfl

/-- No way leads through a file. -/
theorem look_file_cons (bytes : List UInt8) : (file bytes).look (name :: others) = none := rfl

/-- What is found behind a name is found in a directory that has the name. -/
theorem at?_cons_eq_some {found : FileTree} (h : at? (name :: names) tree = some found) :
    ∃ entries inner, tree = directory entries ∧ entry? name entries = some inner ∧
      at? names inner = some found := by
  cases tree with
  | file bytes => simp [at?] at h
  | directory entries =>
    obtain ⟨inner, hinner, hfound⟩ := Option.bind_eq_some_iff.mp h
    exact ⟨entries, inner, rfl, hinner, hfound⟩

/-- What is found in a directory has its name there. -/
theorem mem_names_of_eq_some {inner : FileTree} (h : entry? name entries = some inner) :
    name ∈ entries.map (·.1) := entry?_isSome_iff.mp (by rw [h]; rfl)

/-- Setting an entry below a name sets it in the entry with the name. -/
theorem set_some_cons {inner : FileTree} (h : entry? name entries = some inner) (new : FileTree) :
    (directory entries).set (some new) (name :: names) =
      directory (setEntry name (some (inner.set (some new) names)) entries) := by
  cases names with
  | nil => rfl
  | cons next rest => simp [set, h]

/-- A file that is there may hold other bytes: this changes what is seen there and nothing else. -/
theorem look_set {old : List UInt8} (h : at? names tree = some (file old)) (bytes : List UInt8)
    (others : List FileName) : (tree.set (some (file bytes)) names).look others =
      if others = names then some (.file bytes) else tree.look others := by
  induction names generalizing tree others with
  | nil =>
    obtain rfl : tree = file old := Option.some.inj h
    cases others with
    | nil => rfl
    | cons other rest => rfl
  | cons name names ih =>
    obtain ⟨entries, inner, rfl, hinner, hfile⟩ := at?_cons_eq_some h
    have hmem := mem_names_of_eq_some hinner
    rw [set_some_cons hinner]
    cases others with
    | nil => simp [look, at?, sight, names_setEntry_some hmem]
    | cons other rest =>
      rw [look_cons, entry?_setEntry_some hmem, look_cons]
      by_cases hother : other = name
      · rw [if_pos hother, Option.bind_some, ih hfile, hother, hinner]
        simp
      · simp [hother]

/-- A file that is there may be removed: it is not seen any more, its directory has lost its name, and
nothing else has changed. -/
theorem look_remove {parent : List FileName} {old : List UInt8} {siblings : List FileName}
    (h : at? (parent ++ [name]) tree = some (file old)) (hparent : tree.look parent = some (.directory siblings))
    (others : List FileName) : (tree.set none (parent ++ [name])).look others =
      if others = parent ++ [name] then none
      else if others = parent then some (.directory (siblings.filter (· ≠ name))) else tree.look others := by
  induction parent generalizing tree others with
  | nil =>
    obtain ⟨entries, inner, rfl, hinner, hfile⟩ := at?_cons_eq_some h
    obtain rfl : entries.map (·.1) = siblings := by simpa [look, at?, sight] using hparent
    obtain rfl : inner = file old := Option.some.inj hfile
    change (directory (setEntry name none entries)).look others = _
    cases others with
    | nil => simp [look, at?, sight, names_setEntry_none]
    | cons other rest =>
      rw [look_cons, entry?_setEntry_none, look_cons]
      by_cases hother : other = name
      · subst hother
        cases rest with
        | nil => simp
        | cons => simp [hinner, look_file_cons]
      · simp [hother]
  | cons first parent ih =>
    obtain ⟨entries, inner, rfl, hinner, hfile⟩ := at?_cons_eq_some h
    have hmem := mem_names_of_eq_some hinner
    have hset : (directory entries).set none (first :: parent ++ [name]) =
        directory (setEntry first (some (inner.set none (parent ++ [name]))) entries) := by
      cases parent <;> simp [set, hinner]
    rw [look_cons, hinner, Option.bind_some] at hparent
    rw [hset]
    cases others with
    | nil => simp [look, at?, sight, names_setEntry_some hmem]
    | cons other rest =>
      rw [look_cons, entry?_setEntry_some hmem, look_cons]
      by_cases hother : other = first
      · rw [if_pos hother, Option.bind_some, ih hfile hparent, hother, hinner]
        simp
      · simp [hother]

end FileTree

/-- Follow names from a place along what can be seen; the result leads straight to where they end. -/
def walk (look : List FileName → Option Sight) (place : List FileName) :
    List Text → Except Obstacle (List FileName)
  | [] => .ok place
  | name :: rest =>
    match look place with
    | some (.directory names) =>
      if name = ".." then walk look place.dropLast rest
      else if Path.nameLimit < (FileName.ofText name).length then .error .tooLong
      else if FileName.ofText name ∈ names then walk look (place ++ [FileName.ofText name]) rest
      else .error .missing
    | _ => .error .noDirectory

variable {look other : List FileName → Option Sight} {place : List FileName} {rest : List Text}

/-- Names are followed one after the other. -/
theorem walk_append (first second : List Text) :
    walk look place (first ++ second) = walk look place first >>= fun between => walk look between second := by
  induction first generalizing place with
  | nil => rfl
  | cons name first ih =>
    rw [List.cons_append, walk, walk]
    split
    · split
      · exact ih
      · split
        · rfl
        · split
          · exact ih
          · rfl
    · rfl

/-- Nothing can be followed from what is no directory. -/
theorem walk_of_no_directory (h : ∀ names, look place ≠ some (.directory names)) (name : Text) :
    walk look place (name :: rest) = .error .noDirectory := by
  rw [walk]
  split
  next names hnames => exact absurd hnames (h names)
  · rfl

/-- A name is followed alike in directories that both have it, or both have not. -/
theorem walk_cons_congr {names more : List FileName} {name : Text} (h : look place = some (.directory names))
    (h' : other place = some (.directory more)) (hname : FileName.ofText name ∈ names ↔ FileName.ofText name ∈ more)
    (hrest : ∀ next, walk look next rest = walk other next rest) :
    walk look place (name :: rest) = walk other place (name :: rest) := by
  simp only [walk, h, h', hname, hrest]

/-- Walks depend on which names there are in directories. -/
theorem walk_congr_of_mem (h : ∀ place,
      (∃ names more, look place = some (.directory names) ∧ other place = some (.directory more) ∧
        ∀ name, name ∈ names ↔ name ∈ more) ∨
      (∀ names, look place ≠ some (.directory names)) ∧ ∀ names, other place ≠ some (.directory names)) :
    walk look place rest = walk other place rest := by
  induction rest generalizing place with
  | nil => rfl
  | cons name rest ih =>
    rcases h place with ⟨names, more, hnames, hmore, hmem⟩ | ⟨hnone, hother⟩
    · exact walk_cons_congr hnames hmore (hmem _) fun _ => ih
    · rw [walk_of_no_directory hnone, walk_of_no_directory hother]

/-- Walks depend on directories only. -/
theorem walk_congr
    (h : ∀ place names, look place = some (.directory names) ↔ other place = some (.directory names)) :
    walk look place rest = walk other place rest := by
  refine walk_congr_of_mem fun place => ?_
  by_cases hdirectory : ∃ names, look place = some (.directory names)
  · obtain ⟨names, hnames⟩ := hdirectory
    exact .inl ⟨names, names, hnames, (h place names).mp hnames, fun _ => Iff.rfl⟩
  · exact .inr ⟨fun names hnames => hdirectory ⟨names, hnames⟩,
      fun names hnames => hdirectory ⟨names, (h place names).mpr hnames⟩⟩

/-- What can be seen without the file that has a name in a directory. -/
structure IsWithout (look other : List FileName → Option Sight) (parent : List FileName) (name : FileName) :
    Prop where
  file : ∃ bytes, look (parent ++ [name]) = some (.file bytes)
  gone : other (parent ++ [name]) = none
  directory : ∃ names, look parent = some (.directory names) ∧
    other parent = some (.directory (names.filter (· ≠ name)))
  same : ∀ place, place ≠ parent ++ [name] → place ≠ parent → other place = look place

/-- Without a file every walk goes as with it, unless it leads to the file or through it. -/
theorem IsWithout.walk {parent : List FileName} {name : FileName} (h : IsWithout look other parent name)
    (hplace : ¬ parent ++ [name] <+: place) :
    walk other place rest = walk look place rest ∨ walk other place rest = .error .missing ∧
      (walk look place rest = .ok (parent ++ [name]) ∨ walk look place rest = .error .noDirectory) := by
  induction rest generalizing place with
  | nil => exact .inl rfl
  | cons first rest ih =>
    have hup : ¬ parent ++ [name] <+: place.dropLast := fun hstart =>
      hplace (hstart.trans (List.dropLast_prefix place))
    have hdown (next : FileName) (hnext : place ++ [next] ≠ parent ++ [name]) :
        ¬ parent ++ [name] <+: place ++ [next] := fun hstart =>
      (List.prefix_concat_iff.mp hstart).elim (fun heq => hnext heq.symm) hplace
    by_cases hparent : place = parent
    · subst hparent
      obtain ⟨names, hlook, hother⟩ := h.directory
      obtain ⟨bytes, hfile⟩ := h.file
      simp only [TestPlan.walk, hlook, hother]
      split
      · exact ih hup
      · split
        · exact .inl rfl
        · by_cases hname : FileName.ofText first = name
          · -- The walk with the file goes on from it, where it can only end.
            rw [hname, if_neg (by simp)]
            split
            · refine .inr ⟨rfl, ?_⟩
              cases rest with
              | nil => exact .inl rfl
              | cons next rest => exact .inr (walk_of_no_directory (by simp [hfile]) next)
            · exact .inl rfl
          · have hmem : FileName.ofText first ∈ names.filter (· ≠ name) ↔ FileName.ofText first ∈ names := by
              simp [hname]
            simp only [hmem]
            split
            · exact ih (hdown _ (by simpa using hname))
            · exact .inl rfl
    · have hsame : other place = look place := h.same place (fun heq => hplace (heq ▸ List.prefix_rfl)) hparent
      by_cases hdirectory : ∃ names, look place = some (.directory names)
      · obtain ⟨names, hnames⟩ := hdirectory
        simp only [TestPlan.walk, hsame, hnames]
        split
        · exact ih hup
        · split
          · exact .inl rfl
          · split
            · exact ih (hdown _ fun heq => hparent (List.append_inj_left' heq rfl))
            · exact .inl rfl
      · have hnone : ∀ names, look place ≠ some (.directory names) := fun names hnames => hdirectory ⟨names, hnames⟩
        rw [walk_of_no_directory hnone, walk_of_no_directory (hsame ▸ hnone)]
        exact .inl rfl

namespace Disk

/-- The names of entries that are nested, given innermost first, from the outermost on. -/
def namesOf (way : List (FileName × FileTree)) : List FileName := (way.map (·.1)).reverse

/-- The innermost of nested entries. -/
def innermost (root : FileTree) (way : List (FileName × FileTree)) : FileTree := (way.head?.map (·.2)).getD root

/-- The entries on a way are where their names lead to. -/
def IsWay (root : FileTree) (way : List (FileName × FileTree)) : Prop :=
  ∀ outer, outer <:+ way → FileTree.at? (namesOf outer) root = some (innermost root outer)

/-- Names lead on from where the first of them lead. -/
theorem at?_append (first second : List FileName) (tree : FileTree) :
    FileTree.at? (first ++ second) tree = (FileTree.at? first tree).bind (FileTree.at? second) := by
  induction first generalizing tree with
  | nil => rfl
  | cons name first ih =>
    cases tree with
    | file bytes => rfl
    | directory entries =>
      simp only [List.cons_append, FileTree.at?, Option.bind_assoc]
      exact congrArg _ (funext ih)

/-- The innermost of nested entries has the last name. -/
@[simp] theorem namesOf_cons (entry : FileName × FileTree) (way : List (FileName × FileTree)) :
    namesOf (entry :: way) = namesOf way ++ [entry.1] := by simp [namesOf]

/-- Going up drops the last name. -/
theorem namesOf_tail (way : List (FileName × FileTree)) : namesOf way.tail = (namesOf way).dropLast := by
  cases way <;> simp [namesOf]

/-- A way may be gone on with an entry of the directory where it ends. -/
theorem IsWay.cons {root inner : FileTree} {way : List (FileName × FileTree)}
    {entries : List (FileName × FileTree)} {name : FileName} (h : IsWay root way)
    (hdirectory : innermost root way = .directory entries) (hinner : FileTree.entry? name entries = some inner) :
    IsWay root ((name, inner) :: way) := by
  intro outer houter
  rcases List.suffix_cons_iff.mp houter with rfl | hinside
  · rw [namesOf_cons, at?_append, h way List.suffix_rfl, hdirectory]
    simp [FileTree.at?, hinner, innermost]
  · exact h outer hinside

/-- Following names is walking along what can be seen, and keeps to ways. -/
theorem follow_eq_walk {root : FileTree} {way : List (FileName × FileTree)} (h : IsWay root way)
    (rest : List Text) :
    (follow root way rest).map namesOf = walk root.look (namesOf way) rest ∧
      ∀ found, follow root way rest = .ok found → IsWay root found := by
  induction rest generalizing way with
  | nil => exact ⟨rfl, fun found hfound => by obtain rfl := Except.ok.inj hfound; exact h⟩
  | cons name rest ih =>
    have hlook : root.look (namesOf way) = some (innermost root way).sight := by
      rw [FileTree.look, h way List.suffix_rfl]
      rfl
    cases hinner : innermost root way with
    | file bytes =>
      have hfollow : follow root way (name :: rest) = .error .noDirectory := by
        rw [innermost] at hinner
        simp only [follow, hinner]
      rw [hfollow, walk_of_no_directory (by simp [hlook, hinner, FileTree.sight])]
      exact ⟨rfl, by simp⟩
    | directory entries =>
      have hnames : root.look (namesOf way) = some (.directory (entries.map (·.1))) := by
        rw [hlook, hinner, FileTree.sight]
      rw [innermost] at hinner
      simp only [follow, walk, hinner, hnames]
      split
      · rw [← namesOf_tail]
        exact ih fun outer houter => h outer (houter.trans (List.tail_suffix way))
      · split
        · exact ⟨rfl, by simp⟩
        · cases hentry : FileTree.entry? (FileName.ofText name) entries with
          | none =>
            have hmem : FileName.ofText name ∉ entries.map (·.1) := by
              rw [← FileTree.entry?_isSome_iff, hentry]
              simp
            rw [if_neg hmem]
            exact ⟨rfl, by simp⟩
          | some inner =>
            rw [if_pos (FileTree.mem_names_of_eq_some hentry), ← namesOf_cons (FileName.ofText name, inner)]
            exact ih (h.cons hinner hentry)

end Disk

end TestPlan
