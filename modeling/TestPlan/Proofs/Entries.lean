import Mathlib.Data.List.Induction
import TestPlan.Value.Basic

/-!
# Entries of mappings

Mappings have no two entries whose keys are one key (`Entries.Distinct`), and writing entries keeps it so.
A text finds in an overlay what the upper entries have for it, and what the lower ones have only if the
upper ones have nothing (`Entries.find?_overlay`). Upper entries count as a mapping that is written from
them one after the other, which is what they are if they are distinct (`Entries.ofList_of_distinct`); otherwise some
of them are lost (`Entries.length_ofList_eq_iff`).
-/

namespace TestPlan.Entries

variable {α : Type}

/-- What is found under a name is an entry with the name as its key. -/
theorem mem_of_find?_eq_some {entries : Entries α} {name : Text} {value : α}
    (h : entries.find? name = some value) : (.text name, value) ∈ entries := by
  induction entries with
  | nil => simp [find?] at h
  | cons entry rest ih =>
    obtain ⟨key, v⟩ := entry
    by_cases hkey : key = .text name
    · rw [find?, if_pos hkey, Option.some.injEq] at h
      rw [hkey, h]
      exact List.mem_cons_self
    · rw [find?, if_neg hkey] at h
      exact List.mem_cons_of_mem _ (ih h)

/-- A name is looked up in entries before the ones that follow them. -/
theorem find?_append (name : Text) (front back : Entries α) :
    find? name (front ++ back) = (front.find? name).or (back.find? name) := by
  induction front with
  | nil => rfl
  | cons entry rest ih =>
    obtain ⟨key, v⟩ := entry
    by_cases hkey : key = .text name
    · rw [List.cons_append, find?, if_pos hkey, find?, if_pos hkey, Option.some_or]
    · rw [List.cons_append, find?, if_neg hkey, find?, if_neg hkey, ih]

/-- What holds of all keys and all values still does when an entry with such a key and value is written. -/
theorem forall_insert {P : Scalar → Prop} {Q : α → Prop} {entries : Entries α}
    (h : ∀ e ∈ entries, P e.1 ∧ Q e.2) {key : Scalar} {value : α} (hkey : P key) (hvalue : Q value) :
    ∀ e ∈ entries.insert key value, P e.1 ∧ Q e.2 := by
  induction entries with
  | nil =>
    intro e he
    obtain rfl := List.mem_singleton.mp he
    exact ⟨hkey, hvalue⟩
  | cons entry rest ih =>
    obtain ⟨k, v⟩ := entry
    have hfirst := h (k, v) List.mem_cons_self
    have hrest : ∀ e ∈ rest, P e.1 ∧ Q e.2 := fun e he => h e (List.mem_cons_of_mem _ he)
    intro e he
    rw [insert] at he
    split at he
    · rcases List.mem_cons.mp he with rfl | he
      · exact ⟨hfirst.1, hvalue⟩
      · exact hrest e he
    · rcases List.mem_cons.mp he with rfl | he
      · exact hfirst
      · exact ih hrest e he

/-- What holds of the keys and values of two groups of entries holds of those of their overlay. -/
theorem forall_overlay {P : Scalar → Prop} {Q : α → Prop} {below above : Entries α}
    (hbelow : ∀ e ∈ below, P e.1 ∧ Q e.2) (habove : ∀ e ∈ above, P e.1 ∧ Q e.2) :
    ∀ e ∈ below.overlay above, P e.1 ∧ Q e.2 := by
  induction above generalizing below with
  | nil => exact hbelow
  | cons entry rest ih =>
    have hentry := habove entry List.mem_cons_self
    exact ih (forall_insert hbelow hentry.1 hentry.2) fun e he => habove e (List.mem_cons_of_mem _ he)

/-- What holds of the values of two groups of entries holds of those of their overlay. -/
theorem forall_value_overlay {Q : α → Prop} {below above : Entries α} (hbelow : ∀ e ∈ below, Q e.2)
    (habove : ∀ e ∈ above, Q e.2) : ∀ e ∈ below.overlay above, Q e.2 := fun e he =>
  (forall_overlay (P := fun _ => True) (fun e he => ⟨trivial, hbelow e he⟩)
    (fun e he => ⟨trivial, habove e he⟩) e he).2

/-- No two entries have one key. -/
def Distinct (entries : Entries α) : Prop :=
  entries.Pairwise fun a b => a.1.sameKey b.1 = false

/-- Keys can be compared, so whether they are distinct is decided. -/
instance (entries : Entries α) : Decidable entries.Distinct :=
  inferInstanceAs (Decidable (entries.Pairwise fun a b => a.1.sameKey b.1 = false))

/-- In distinct entries, a text finds the entry that has it as its key. -/
theorem find?_eq_some_iff {entries : Entries α} (h : entries.Distinct) {name : Text} {value : α} :
    entries.find? name = some value ↔ (.text name, value) ∈ entries := by
  refine ⟨mem_of_find?_eq_some, fun hmem => ?_⟩
  induction entries with
  | nil => simp at hmem
  | cons entry rest ih =>
    obtain ⟨key, v⟩ := entry
    obtain ⟨hfirst, hrest⟩ := List.pairwise_cons.mp h
    rcases List.mem_cons.mp hmem with hhead | hrestmem
    · obtain ⟨rfl, rfl⟩ := Prod.mk.inj hhead
      rw [find?, if_pos rfl]
    · have hkey : key ≠ .text name := by
        intro hkey
        simpa [hkey] using hfirst _ hrestmem
      rw [find?, if_neg hkey, ih hrest hrestmem]

/-- In distinct entries, it does not matter in which order they stand. -/
theorem find?_eq_of_perm {entries other : Entries α} (h : entries.Distinct) (hother : other.Distinct)
    (hperm : entries.Perm other) (name : Text) : entries.find? name = other.find? name := by
  refine Option.ext fun value => ?_
  rw [find?_eq_some_iff h, find?_eq_some_iff hother, hperm.mem_iff]

/-- The entries with some names as their keys. -/
def named (names : List String) (entries : Entries α) : Entries α :=
  entries.filter fun entry => names.any fun name => entry.1 = .text name

/-- A name finds an entry among those with some names as their keys if it is one of the names. -/
theorem find?_named {names : List String} {name : String} (hname : name ∈ names) (entries : Entries α) :
    (entries.named names).find? name = entries.find? name := by
  induction entries with
  | nil => rfl
  | cons entry rest ih =>
    obtain ⟨key, v⟩ := entry
    rw [named] at ih ⊢
    rw [List.filter_cons, find?]
    by_cases hkey : key = .text name
    · rw [if_pos (List.any_eq_true.mpr ⟨name, hname, by simp [hkey]⟩), find?, if_pos hkey, if_pos hkey]
    · rw [if_neg hkey, ← ih]
      split
      · rw [find?, if_neg hkey]
      · rfl

/-- Writing an entry adds no second one for its key. -/
theorem distinct_insert {entries : Entries α} (h : entries.Distinct) (key : Scalar) (value : α) :
    (entries.insert key value).Distinct := by
  induction entries with
  | nil => exact List.pairwise_singleton _ _
  | cons entry rest ih =>
    obtain ⟨k, v⟩ := entry
    obtain ⟨hfirst, hrest⟩ := List.pairwise_cons.mp h
    rw [insert]
    split
    · exact List.pairwise_cons.mpr ⟨hfirst, hrest⟩
    next hother =>
      refine List.pairwise_cons.mpr ⟨fun e he => ?_, ih hrest⟩
      have hkeys : ∀ e ∈ Entries.insert key value rest, k.sameKey e.1 = false ∧ True :=
        forall_insert (P := fun other => k.sameKey other = false) (Q := fun _ => True)
          (fun e he => ⟨hfirst e he, trivial⟩) (by simpa using hother) trivial
      exact (hkeys e he).1

/-- Overlaying distinct entries leaves them distinct. -/
theorem distinct_overlay {below : Entries α} (h : below.Distinct) (above : Entries α) :
    (below.overlay above).Distinct := by
  induction above generalizing below with
  | nil => exact h
  | cons entry rest ih => exact ih (distinct_insert h entry.1 entry.2)

/-- Entries that are written one after the other are distinct. -/
theorem distinct_ofList (entries : Entries α) : (ofList entries).Distinct :=
  distinct_overlay List.Pairwise.nil entries

/-- An entry with a new key is written behind the others. -/
theorem insert_of_new {entries : Entries α} {key : Scalar} (value : α)
    (h : ∀ e ∈ entries, e.1.sameKey key = false) : entries.insert key value = entries ++ [(key, value)] := by
  induction entries with
  | nil => rfl
  | cons entry rest ih =>
    obtain ⟨k, v⟩ := entry
    have hfirst := h (k, v) List.mem_cons_self
    rw [insert, if_neg (by simp [hfirst]), ih fun e he => h e (List.mem_cons_of_mem _ he)]
    rfl

/-- Distinct entries are the mapping that is written from them. -/
theorem ofList_of_distinct {entries : Entries α} (h : entries.Distinct) : ofList entries = entries := by
  induction entries using List.reverseRecOn with
  | nil => rfl
  | append_singleton front entry ih =>
    obtain ⟨hfront, -, hlast⟩ := List.pairwise_append.mp h
    have hwritten : overlay [] front = front := ih hfront
    rw [ofList, overlay_append, hwritten]
    exact insert_of_new _ fun e he => hlast e he entry List.mem_cons_self

/-- Writing an entry adds at most one. -/
theorem length_insert_le (entries : Entries α) (key : Scalar) (value : α) :
    (entries.insert key value).length ≤ entries.length + 1 := by
  induction entries with
  | nil => exact Nat.le_refl _
  | cons entry rest ih =>
    rw [insert]
    split
    · exact Nat.le_succ _
    · exact Nat.succ_le_succ ih

/-- Where writing an entry adds one, its key is new. -/
theorem new_of_length_insert {entries : Entries α} {key : Scalar} {value : α}
    (h : (entries.insert key value).length = entries.length + 1) : ∀ e ∈ entries, e.1.sameKey key = false := by
  induction entries with
  | nil => exact fun e he => absurd he List.not_mem_nil
  | cons entry rest ih =>
    rw [insert] at h
    split at h
    · simp at h
    next hother => exact List.forall_mem_cons.mpr ⟨by simpa using hother, ih (Nat.succ.inj h)⟩

/-- Entries that are written one after the other do not become more. -/
theorem length_ofList_le (entries : Entries α) : (ofList entries).length ≤ entries.length := by
  induction entries using List.reverseRecOn with
  | nil => exact Nat.le_refl _
  | append_singleton front entry ih =>
    rw [ofList, overlay_append, List.length_append]
    exact Nat.le_trans (length_insert_le _ _ _) (Nat.succ_le_succ ih)

/-- No entry is lost in writing entries one after the other exactly if they are distinct. -/
theorem length_ofList_eq_iff {entries : Entries α} :
    (ofList entries).length = entries.length ↔ entries.Distinct := by
  refine ⟨fun h => ?_, fun h => by rw [ofList_of_distinct h]⟩
  induction entries using List.reverseRecOn with
  | nil => exact List.Pairwise.nil
  | append_singleton front entry ih =>
    have hlast : ofList (front ++ [entry]) = (ofList front).insert entry.1 entry.2 := overlay_append _ _ _
    have hfront := length_ofList_le front
    have hadded := length_insert_le (ofList front) entry.1 entry.2
    rw [hlast, List.length_append, List.length_singleton] at h
    have hdistinct := ih (by omega)
    have hkept := ofList_of_distinct hdistinct
    rw [hkept] at h
    refine List.pairwise_append.mpr ⟨hdistinct, List.pairwise_singleton _ _, fun e he other hother => ?_⟩
    rw [List.mem_singleton.mp hother]
    exact new_of_length_insert h e he

/-- A text finds in an overlay what the upper entries give it, and else what the lower ones do. -/
theorem find?_overlay (name : Text) (below above : Entries α) :
    (below.overlay above).find? name = ((ofList above).find? name).or (below.find? name) := by
  induction above using List.reverseRecOn with
  | nil => rfl
  | append_singleton front entry ih =>
    have hlast (lower : Entries α) :
        lower.overlay (front ++ [entry]) = (lower.overlay front).insert entry.1 entry.2 := overlay_append _ _ _
    rw [ofList, hlast, hlast, find?_insert, find?_insert, ih, ofList]
    by_cases hkey : entry.1 = .text name
    · rw [if_pos hkey, if_pos hkey]
      rfl
    · rw [if_neg hkey, if_neg hkey]

end TestPlan.Entries
