import Mathlib.Data.Bool.Basic
import TestPlan.Proofs.Json.Obstacles
import TestPlan.Proofs.PlainStep

/-!
# When a structured step has a text

The text of a structured step is JSON, which names every key of a mapping. Keys that have no name there
are written as text first, but not inside pairs, so a step has a text when no mapping inside a pair has
such a key (`Value.namesKeys`) and no integer in it is too long (`Value.stepText_written`).
-/

namespace TestPlan

/-- A result is there, or an integer is too long for it. -/
def WrittenUnlessLong {α : Type} (writable : Bool) (result : Except JsonFault α) : Prop :=
  (∃ a, result = .ok a) ∨ (writable = false ∧ result = .error (.write .tooManyDigits))

namespace Scalar

/-- A key that is written as text has a name. -/
theorem isNamed_textKey (key : Scalar) : key.textKey.isNamed = true := by cases key <;> rfl

/-- A key can be written as a text if it can be written at all. -/
theorem isWritable_textKey {key : Scalar} (h : key.isWritable = true) : key.textKey.isWritable = true := by
  unfold textKey
  split
  · rfl
  · rfl
  · rfl
  · exact h

end Scalar

namespace Value

/-- Items have keys that can be names exactly if each of them has. -/
theorem itemsNameKeys_iff {inPair : Bool} {vs : List Value} :
    itemsNameKeys inPair vs = true ↔ ∀ v ∈ vs, v.namesKeys inPair = true := by
  induction vs with
  | nil => simp [itemsNameKeys]
  | cons v rest ih => simp [itemsNameKeys, ih]

/-- Entries have keys that can be names exactly if their values have and, inside a tuple, their own keys can. -/
theorem entriesNameKeys_iff {inPair : Bool} {es : Entries Value} : entriesNameKeys inPair es = true ↔
    ∀ e ∈ es, (!inPair || e.1.isNamed) = true ∧ e.2.namesKeys inPair = true := by
  induction es with
  | nil => simp [entriesNameKeys]
  | cons entry rest ih =>
    obtain ⟨key, v⟩ := entry
    simp [entriesNameKeys, ih]

/-- Items can be written exactly if each of them can. -/
theorem treesWritable_iff {vs : List Value} : treesWritable vs = true ↔ ∀ v ∈ vs, v.treeWritable = true := by
  induction vs with
  | nil => simp [treesWritable]
  | cons v rest ih => simp [treesWritable, ih]

/-- Entries can be written exactly if their keys and values can. -/
theorem entriesWritable_iff {es : Entries Value} :
    entriesWritable es = true ↔ ∀ e ∈ es, e.1.isWritable = true ∧ e.2.treeWritable = true := by
  induction es with
  | nil => simp [entriesWritable]
  | cons entry rest ih =>
    obtain ⟨key, v⟩ := entry
    simp [entriesWritable, ih]

/-- A finite tree can be written only if all its parts can. -/
theorem inherited_treeWritable : Inherited fun v => v.treeWritable = true where
  item h hv := treesWritable_iff.mp h _ hv
  entry h hv := (entriesWritable_iff.mp h _ hv).2

mutual

/-- Where no container contains itself, nothing is opened again. -/
theorem reopen_of_isPlain {v : Value} (hv : v.isPlain = true) : v.reopen = v := by
  match v, hv with
  | .scalar _, _ => rfl
  | .list _, hv => exact congrArg Value.list (reopenList_of_arePlain hv)
  | .map _, hv => exact congrArg Value.map (reopenEntries_of_entriesPlain hv)
  | .pair .., hv =>
    obtain ⟨hfirst, hsecond⟩ := Bool.and_eq_true_iff.mp hv
    rw [reopen, reopen_of_isPlain hfirst, reopen_of_isPlain hsecond]
  | .set _, _ => rfl

/-- Where no container contains itself, nothing is opened again in the values of a list. -/
theorem reopenList_of_arePlain {vs : List Value} (hvs : arePlain vs = true) : reopenList vs = vs := by
  match vs, hvs with
  | [], _ => rfl
  | v :: rest, hvs =>
    obtain ⟨hv, hrest⟩ := Bool.and_eq_true_iff.mp hvs
    rw [reopenList, reopen_of_isPlain hv, reopenList_of_arePlain hrest]

/-- Where no container contains itself, nothing is opened again in the values of a mapping. -/
theorem reopenEntries_of_entriesPlain {es : List (Scalar × Value)} (hes : entriesPlain es = true) :
    reopenEntries es = es := by
  match es, hes with
  | [], _ => rfl
  | (key, v) :: rest, hes =>
    obtain ⟨hv, hrest⟩ := Bool.and_eq_true_iff.mp hes
    rw [reopenEntries, reopen_of_isPlain hv, reopenEntries_of_entriesPlain hrest]

end

/-- A value can be laid out in JSON, where integers are writable under a condition. -/
structure IsReady (writable : Prop) (v : Value) : Prop where
  plain : v.isPlain = true
  named : v.namesKeys true = true
  written : writable → v.treeWritable = true

/-- A value can be laid out in JSON, where keys are named under one condition and integers are writable under
another. -/
structure IsReadyIf (named writable : Prop) (v : Value) : Prop where
  plain : v.isPlain = true
  named : named → v.namesKeys true = true
  written : writable → v.treeWritable = true

/-- A value that is ready under some conditions is ready under stronger ones. -/
theorem IsReadyIf.mono {named named' writable writable' : Prop} {v : Value} (h : v.IsReadyIf named writable)
    (hnamed : named' → named) (hwritable : writable' → writable) : v.IsReadyIf named' writable' :=
  ⟨h.plain, h.named ∘ hnamed, h.written ∘ hwritable⟩

mutual

/-- Writing keys as text leaves no key without a name if those inside pairs have one, and no integer is too long
that was not. -/
theorem textKeys_readyIf {v : Value} (hv : v.isPlain = true) :
    v.textKeys.IsReadyIf (v.namesKeys false = true) (v.treeWritable = true) := by
  match v, hv with
  | .scalar _, _ => exact ⟨rfl, fun _ => rfl, id⟩
  | .list items, hv =>
    have hready := textKeysList_readyIf hv
    exact ⟨arePlain_iff.mpr fun w hw => (hready w hw).plain,
      fun hnames => itemsNameKeys_iff.mpr fun w hw => (hready w hw).named hnames,
      fun hwritable => treesWritable_iff.mpr fun w hw => (hready w hw).written hwritable⟩
  | .map entries, hv =>
    have hready := Entries.forall_overlay
      (Q := IsReadyIf (entriesNameKeys false entries = true) (entriesWritable entries = true))
      (P := fun key => key.isNamed = true ∧ (entriesWritable entries = true → key.isWritable = true))
      (fun e he => absurd he List.not_mem_nil) (textKeysEntries_readyIf hv)
    refine ⟨entriesPlain_iff.mpr fun e he => (hready e he).2.plain,
      fun hnames => entriesNameKeys_iff.mpr fun e he => ⟨?_, (hready e he).2.named hnames⟩,
      fun hwritable => entriesWritable_iff.mpr fun e he =>
        ⟨(hready e he).1.2 hwritable, (hready e he).2.written hwritable⟩⟩
    exact (hready e he).1.1
  | .pair first second, hv =>
    obtain ⟨hfirst, hsecond⟩ := Bool.and_eq_true_iff.mp hv
    rw [textKeys, reopen_of_isPlain hfirst, reopen_of_isPlain hsecond]
    exact ⟨hv, id, id⟩
  | .set _, _ => exact ⟨rfl, fun _ => rfl, id⟩

/-- Writing keys as text leaves no key without a name in the values of a list if those inside pairs have one. -/
theorem textKeysList_readyIf {vs : List Value} (hvs : arePlain vs = true) :
    ∀ w ∈ textKeysList vs, w.IsReadyIf (itemsNameKeys false vs = true) (treesWritable vs = true) := by
  match vs, hvs with
  | [], _ => exact fun w hw => absurd hw List.not_mem_nil
  | v :: rest, hvs =>
    obtain ⟨hv, hrest⟩ := Bool.and_eq_true_iff.mp hvs
    intro w hw
    rcases List.mem_cons.mp hw with rfl | hw
    · exact (textKeys_readyIf hv).mono Bool.and_elim_left Bool.and_elim_left
    · exact (textKeysList_readyIf hrest w hw).mono Bool.and_elim_right Bool.and_elim_right

/-- Keys that are written as text have names, and so do those in the values of their entries if those inside pairs
have one. -/
theorem textKeysEntries_readyIf {es : List (Scalar × Value)} (hes : entriesPlain es = true) :
    ∀ e ∈ textKeysEntries es, (e.1.isNamed = true ∧ (entriesWritable es = true → e.1.isWritable = true)) ∧
      e.2.IsReadyIf (entriesNameKeys false es = true) (entriesWritable es = true) := by
  match es, hes with
  | [], _ => exact fun e he => absurd he List.not_mem_nil
  | (key, v) :: rest, hes =>
    obtain ⟨hv, hrest⟩ := Bool.and_eq_true_iff.mp hes
    intro e he
    rcases List.mem_cons.mp he with rfl | he
    · exact ⟨⟨key.isNamed_textKey, fun h => Scalar.isWritable_textKey (Bool.and_elim_left (Bool.and_elim_left h))⟩,
        (textKeys_readyIf hv).mono Bool.and_elim_left (Bool.and_elim_right ∘ Bool.and_elim_left)⟩
    · obtain ⟨⟨hnamed, hwritable⟩, hready⟩ := textKeysEntries_readyIf hrest e he
      exact ⟨⟨hnamed, hwritable ∘ Bool.and_elim_right⟩, hready.mono Bool.and_elim_right Bool.and_elim_right⟩

end

/-- Writing keys as text leaves no key without a name, except inside pairs. -/
theorem textKeys_ready {v : Value} (hv : v.isPlain = true) (hnames : v.namesKeys false = true) :
    v.textKeys.IsReady (v.treeWritable = true) := by
  have hready := textKeys_readyIf hv
  exact ⟨hready.plain, hready.named hnames, hready.written⟩

/-- A value without self-reference can be written exactly if it can be as the tree that it is. -/
theorem isWritable_of_isPlain {v : Value} (hv : v.isPlain = true) : v.isWritable = v.treeWritable := by
  rw [isWritable, spread_of_isPlain hv]

/-- The text of a structured step is JSON if nothing is in the way; a key that is in the way first is reported,
and anything else makes it the display text. -/
theorem stepText_cases (v : Value) :
    (∃ text, v.spread.textKeys.treeJson .compact 0 = .ok text ∧ v.stepText = .ok text) ∨
      (∃ kind, (v.spread.textKeys.obstacles .compact).head? = some (.key kind) ∧ v.stepText = .error (.key kind)) ∨
        ∃ fault, (v.spread.textKeys.obstacles .compact).head? = some fault ∧ (∀ kind, fault ≠ .key kind) ∧
          v.stepText = (v.write display).mapError .write := by
  have hstops := treeJson_stopsAt .compact 0 v.spread.textKeys
  unfold stepText
  cases hjson : v.spread.textKeys.treeJson .compact 0 with
  | ok text => exact .inl ⟨text, rfl, rfl⟩
  | error fault =>
    have hfirst := hstops.eq_error_iff.mp hjson
    cases fault with
    | key kind => exact .inr (.inl ⟨kind, hfirst, rfl⟩)
    | circular => exact .inr (.inr ⟨_, hfirst, nofun, rfl⟩)
    | write fault => exact .inr (.inr ⟨_, hfirst, nofun, rfl⟩)

/-- A structured step without self-reference, whose pairs name their keys, has a text unless an integer in
it is too long. -/
theorem stepText_written {v : Value} (hv : v.isPlain = true) (hnames : v.namesKeys false = true) :
    WrittenUnlessLong v.treeWritable v.stepText := by
  have hready := textKeys_ready hv hnames
  have htally := obstacles_tally .compact v.textKeys
  have hcases := v.stepText_cases
  rw [spread_of_isPlain hv] at hcases
  rcases hcases with ⟨text, -, htext⟩ | ⟨kind, hfirst, -⟩ | ⟨fault, -, -, htext⟩
  · exact .inl ⟨text, htext⟩
  · have hunnamed := htally.key.mp ⟨kind, List.mem_of_mem_head? hfirst⟩
    exact absurd hready.named (by rw [hunnamed]; decide)
  · rw [htext, write, isWritable_of_isPlain hv]
    cases v.treeWritable
    · exact .inr ⟨rfl, rfl⟩
    · exact .inl ⟨_, rfl⟩

/-- A list of pairs has no text as a step if the second part of a pair has a key that cannot be named. -/
theorem stepText_of_unnamed {key : Scalar} (h : key.isNamed = false) (first : Text) (v : Value) :
    (Value.list [.pair (.text first) (.map [(key, v)])]).stepText =
      .error (.key (JsonLayout.compact.keyKind key)) := by
  have hjson : (Value.list [.pair (.text first) (.map [(key, v)])]).spread.textKeys.treeJson .compact 0 =
      .error (.key (JsonLayout.compact.keyKind key)) := by
    simp only [spread, spreadList, spreadEntries, textKeys, textKeysList, reopen, reopenEntries, treeJson,
      itemsJson, entriesJson, Scalar.jsonKey_of_unnamed .compact h, Scalar.writeJson, Scalar.isWritable, if_true]
    rfl
  rw [stepText, hjson]

/-- An integer that is too long has no text as a step. -/
theorem stepText_of_long {n : Int} (h : Number.isWritable n = false) :
    (Value.int n).stepText = .error (.write .tooManyDigits) := by
  have hscalar : (Scalar.int n).isWritable = false := h
  have hjson : (Value.int n).spread.textKeys.treeJson .compact 0 = .error (.write .tooManyDigits) := by
    rw [spread, textKeys, treeJson, Scalar.writeJson, hscalar]
    rfl
  rw [stepText, hjson, write, isWritable, spread, treeWritable, hscalar]
  rfl

end Value

/-- The least integer that is too long. -/
theorem Number.isWritable_limit : isWritable (Int.pow 10 digitLimit) = false := by
  have habs (n : Nat) : (Int.pow 10 n).natAbs = Nat.pow 10 n := Int.natAbs_pow 10 n
  rw [isWritable, habs]
  exact decide_eq_false (Nat.lt_irrefl _)

end TestPlan
