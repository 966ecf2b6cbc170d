import TestPlan.Value.Json

/-!
# What keeps a value from having a JSON form

All that keeps a tree from having a JSON form, in the order in which a writer meets it (`Value.obstacles`): keys
without a name, containers inside themselves, and integers that are too long. A writer stops at the first of them
(`Value.treeJson_stopsAt`). There is one of each sort exactly if the tree is not plain, does not name its keys or
cannot be written (`Value.obstacles_tally`), but which of them is the first one depends on where they stand.
-/

namespace TestPlan

/-! ## Names of keys -/

/-- Whether a key has a name in JSON; dates and bytes have none. -/
def Scalar.isNamed : Scalar → Bool
  | .date _ => false
  | .datetime _ => false
  | .bytes _ => false
  | _ => true

namespace Value

mutual

/-- Whether the keys of mappings can be named: all of them inside a pair, where they stay as they are. -/
def namesKeys (inPair : Bool) : Value → Bool
  | .scalar _ => true
  | .list items => itemsNameKeys inPair items
  | .map entries => entriesNameKeys inPair entries
  | .pair first second => namesKeys true first && namesKeys true second
  | .set _ => true
  | .knot .. => true
termination_by structural v => v

/-- Whether the keys of mappings in the items of a list can be named. -/
def itemsNameKeys (inPair : Bool) : List Value → Bool
  | [] => true
  | v :: rest => namesKeys inPair v && itemsNameKeys inPair rest
termination_by structural vs => vs

/-- Whether the keys of a mapping and of those in its values can be named. -/
def entriesNameKeys (inPair : Bool) : List (Scalar × Value) → Bool
  | [] => true
  | (key, v) :: rest => (!inPair || key.isNamed) && namesKeys inPair v && entriesNameKeys inPair rest
termination_by structural es => es

end

end Value

/-! ## Faults in the order of writing -/

/-- A computation stops at the first of some faults, and has a result if there are none. -/
def StopsAt {α : Type} (faults : List JsonFault) (result : Except JsonFault α) : Prop :=
  match faults with
  | [] => ∃ a, result = .ok a
  | fault :: _ => result = .error fault

namespace StopsAt

variable {α β : Type} {faults more : List JsonFault} {result : Except JsonFault α} {fault : JsonFault}

/-- A writer in two parts stops at the first fault of either. -/
theorem bind {next : α → Except JsonFault β} (h : StopsAt faults result) (hnext : ∀ a, StopsAt more (next a)) :
    StopsAt (faults ++ more) (result >>= next) := by
  cases faults with
  | nil =>
    obtain ⟨a, rfl⟩ := h
    exact hnext a
  | cons fault rest =>
    obtain rfl := h
    rfl

/-- A writer still stops at its first fault when its result is put to use. -/
theorem map (h : StopsAt faults result) (f : α → β) : StopsAt faults (result >>= fun a => .ok (f a)) := by
  have hmap : StopsAt (faults ++ []) (result >>= fun a => .ok (f a)) := h.bind fun a => ⟨f a, rfl⟩
  rwa [List.append_nil] at hmap

/-- There is a fault exactly if it is the first one. -/
theorem eq_error_iff (h : StopsAt faults result) : result = .error fault ↔ faults.head? = some fault := by
  cases faults with
  | nil =>
    obtain ⟨a, rfl⟩ := h
    exact ⟨nofun, nofun⟩
  | cons first rest =>
    obtain rfl := h
    rw [List.head?_cons, Option.some.injEq, Except.error.injEq]

/-- There is a result exactly if there are no faults. -/
theorem exists_eq_ok_iff (h : StopsAt faults result) : (∃ a, result = .ok a) ↔ faults = [] := by
  cases faults with
  | nil => exact iff_of_true h rfl
  | cons first rest =>
    obtain rfl := h
    exact ⟨fun ⟨_, ha⟩ => absurd ha nofun, nofun⟩

end StopsAt

namespace Scalar

/-- What keeps a scalar from being written. -/
def obstacles (s : Scalar) : List JsonFault := if s.isWritable then [] else [.write .tooManyDigits]

/-- What keeps a key from having a JSON text. -/
def keyObstacles (layout : JsonLayout) (key : Scalar) : List JsonFault :=
  if key.isNamed then key.obstacles else [.key (layout.keyKind key)]

/-- A key that cannot be a name is refused by its kind. -/
theorem jsonKey_of_unnamed (layout : JsonLayout) {key : Scalar} (h : key.isNamed = false) :
    key.jsonKey layout = .error (.key (layout.keyKind key)) := by
  cases key with
  | date d => rfl
  | datetime t => rfl
  | bytes bs => rfl
  | _ => simp [isNamed] at h

/-- Writing a scalar stops at its obstacle, if it has one. -/
theorem writeJson_stopsAt (s : Scalar) : StopsAt s.obstacles s.writeJson := by
  unfold obstacles writeJson
  split
  · exact ⟨s.json, rfl⟩
  · rfl

/-- Writing a key stops at its obstacle, if it has one. -/
theorem jsonKey_stopsAt (layout : JsonLayout) (key : Scalar) :
    StopsAt (key.keyObstacles layout) (key.jsonKey layout) := by
  unfold keyObstacles
  split
  next hnamed =>
    unfold jsonKey
    split
    next s => exact ⟨s, rfl⟩
    · simp [isNamed] at hnamed
    · simp [isNamed] at hnamed
    · simp [isNamed] at hnamed
    · exact key.writeJson_stopsAt
  next hunnamed => exact jsonKey_of_unnamed layout (by simpa using hunnamed)

/-- Dates and bytes can be written. -/
theorem isWritable_of_unnamed {key : Scalar} (h : key.isNamed = false) : key.isWritable = true := by
  cases key with
  | int n => simp [isNamed] at h
  | _ => rfl

end Scalar

namespace Value

mutual

/-- What keeps a tree from having a JSON form, in the order in which it is written. -/
def obstacles (layout : JsonLayout) : Value → List JsonFault
  | .scalar s => s.obstacles
  | .list items => itemObstacles layout items
  | .map entries => entryObstacles layout entries
  | .pair first second => obstacles layout first ++ obstacles layout second
  | .set members => if members.all Scalar.isWritable then [] else [.write .tooManyDigits]
  | .knot .. => [.circular]
termination_by structural v => v

/-- What keeps the items of a list from having JSON forms. -/
def itemObstacles (layout : JsonLayout) : List Value → List JsonFault
  | [] => []
  | v :: rest => obstacles layout v ++ itemObstacles layout rest
termination_by structural vs => vs

/-- What keeps the entries of a mapping from having JSON forms. -/
def entryObstacles (layout : JsonLayout) : List (Scalar × Value) → List JsonFault
  | [] => []
  | (key, v) :: rest => key.keyObstacles layout ++ (obstacles layout v ++ entryObstacles layout rest)
termination_by structural es => es

end

mutual

/-- Writing a tree in JSON stops at the first thing that is in the way. -/
theorem treeJson_stopsAt (layout : JsonLayout) (level : Nat) (v : Value) :
    StopsAt (v.obstacles layout) (v.treeJson layout level) := by
  match v with
  | .scalar s => exact s.writeJson_stopsAt
  | .list items => exact (itemsJson_stopsAt layout (level + 1) items).map _
  | .map entries => exact (entriesJson_stopsAt layout (level + 1) entries).map _
  | .pair first second =>
    exact (treeJson_stopsAt layout (level + 1) first).bind fun _ =>
      (treeJson_stopsAt layout (level + 1) second).map _
  | .set members =>
    rw [treeJson, obstacles]
    split
    · exact ⟨_, rfl⟩
    · rfl
  | .knot .. => rfl

/-- Writing the items of a list in JSON stops at the first thing that is in the way. -/
theorem itemsJson_stopsAt (layout : JsonLayout) (level : Nat) (vs : List Value) :
    StopsAt (itemObstacles layout vs) (itemsJson layout level vs) := by
  match vs with
  | [] => exact ⟨[], rfl⟩
  | v :: rest =>
    exact (treeJson_stopsAt layout level v).bind fun _ => (itemsJson_stopsAt layout level rest).map _

/-- Writing the entries of a mapping in JSON stops at the first thing that is in the way. -/
theorem entriesJson_stopsAt (layout : JsonLayout) (level : Nat) (es : List (Scalar × Value)) :
    StopsAt (entryObstacles layout es) (entriesJson layout level es) := by
  match es with
  | [] => exact ⟨[], rfl⟩
  | (key, v) :: rest =>
    exact (key.jsonKey_stopsAt layout).bind fun _ =>
      (treeJson_stopsAt layout level v).bind fun _ => (entriesJson_stopsAt layout level rest).map _

end

end Value

/-- Faults are of three sorts: one of each is there exactly if something has not the property that it stands for. -/
structure IsTally (faults : List JsonFault) (plain named writable : Bool) : Prop where
  circular : .circular ∈ faults ↔ plain = false
  key : (∃ kind, .key kind ∈ faults) ↔ named = false
  long : .write .tooManyDigits ∈ faults ↔ writable = false

namespace IsTally

variable {faults more : List JsonFault} {plain plain' named named' writable writable' : Bool}

/-- Without faults no property is missing. -/
theorem nil : IsTally [] true true true := ⟨by simp, by simp, by simp⟩

/-- The faults of two things are those of both together. -/
theorem append (h : IsTally faults plain named writable) (hmore : IsTally more plain' named' writable') :
    IsTally (faults ++ more) (plain && plain') (named && named') (writable && writable') where
  circular := by rw [List.mem_append, h.circular, hmore.circular, Bool.and_eq_false_iff]
  key := by simp only [List.mem_append, exists_or, h.key, hmore.key, Bool.and_eq_false_iff]
  long := by rw [List.mem_append, h.long, hmore.long, Bool.and_eq_false_iff]

/-- There is no fault if all three properties are there. -/
theorem eq_nil_iff (h : IsTally faults plain named writable) :
    faults = [] ↔ plain = true ∧ named = true ∧ writable = true := by
  constructor
  · rintro rfl
    refine ⟨?_, ?_, ?_⟩
    · simpa using h.circular
    · simpa using h.key
    · simpa using h.long
  · rintro ⟨rfl, rfl, rfl⟩
    refine List.eq_nil_iff_forall_not_mem.mpr fun fault hfault => ?_
    cases fault with
    | key kind => exact absurd (h.key.mp ⟨kind, hfault⟩) nofun
    | circular => exact absurd (h.circular.mp hfault) nofun
    | write fault => exact absurd (h.long.mp hfault) nofun

end IsTally

/-- The only obstacle in a scalar is a number that cannot be written. -/
theorem Scalar.obstacles_tally (s : Scalar) : IsTally s.obstacles true true s.isWritable := by
  unfold obstacles
  cases s.isWritable
  · exact ⟨by simp, by simp, by simp⟩
  · exact .nil

namespace Value

mutual

/-- What is in the way of a tree is of the sorts that it has no property against. -/
theorem obstacles_tally (layout : JsonLayout) (v : Value) :
    IsTally (v.obstacles layout) v.isPlain (v.namesKeys true) v.treeWritable := by
  match v with
  | .scalar s => exact s.obstacles_tally
  | .list items => exact itemObstacles_tally layout items
  | .map entries => exact entryObstacles_tally layout entries
  | .pair first second => exact (obstacles_tally layout first).append (obstacles_tally layout second)
  | .set members =>
    rw [obstacles, treeWritable]
    split
    next hall =>
      rw [hall]
      exact .nil
    next hlong =>
      rw [Bool.not_eq_true] at hlong
      rw [hlong]
      exact ⟨by simp [isPlain], by simp [namesKeys], by simp⟩
  | .knot .. => exact ⟨by simp [obstacles, isPlain], by simp [obstacles, namesKeys],
    by simp [obstacles, treeWritable]⟩

/-- What is in the way of the items of a list is of the sorts that they have no property against. -/
theorem itemObstacles_tally (layout : JsonLayout) (vs : List Value) :
    IsTally (itemObstacles layout vs) (arePlain vs) (itemsNameKeys true vs) (treesWritable vs) := by
  match vs with
  | [] => exact .nil
  | v :: rest => exact (obstacles_tally layout v).append (itemObstacles_tally layout rest)

/-- What is in the way of the entries of a mapping is of the sorts that they have no property against. -/
theorem entryObstacles_tally (layout : JsonLayout) (es : List (Scalar × Value)) :
    IsTally (entryObstacles layout es) (entriesPlain es) (entriesNameKeys true es) (entriesWritable es) := by
  match es with
  | [] => exact .nil
  | (key, v) :: rest =>
    have hkey : IsTally (key.keyObstacles layout) true key.isNamed key.isWritable := by
      unfold Scalar.keyObstacles
      split
      next hnamed =>
        rw [hnamed]
        exact key.obstacles_tally
      next hnamed =>
        rw [Bool.not_eq_true] at hnamed
        rw [hnamed]
        exact ⟨by simp, by simp, by simp [Scalar.isWritable_of_unnamed hnamed]⟩
    have hall := hkey.append ((obstacles_tally layout v).append (entryObstacles_tally layout rest))
    rwa [Bool.true_and, ← Bool.and_assoc, ← Bool.and_assoc] at hall

end

end Value
end TestPlan
