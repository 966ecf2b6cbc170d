import TestPlan.Proofs.Json.Image
import TestPlan.Proofs.StepText

/-!
# The members of a structured step

The JSON text of a structured step without self-reference says a document, and for every mapping in the step this
document has one member for every entry if no two keys of the mapping become one when they are written as text
(`Value.keepsKeys`). That is also necessary: where two keys become one text, as a date and the text that shows it
do, the later entry takes the place of the earlier one, which is lost (`Value.stepText_members`).
-/

namespace TestPlan.Value

mutual

/-- Whether no two keys of a mapping become one when they are written as text. Inside pairs they stay as they are.
-/
def keepsKeys : Value → Bool
  | .scalar _ => true
  | .list items => itemsKeepKeys items
  | .map entries =>
    decide (Entries.Distinct (entries.map fun (key, v) => (key.textKey, v))) && entriesKeepKeys entries
  | .pair .. => true
  | .set _ => true
  | .knot .. => true
termination_by structural v => v

/-- Whether no two keys of a mapping in a list become one when they are written as text. -/
def itemsKeepKeys : List Value → Bool
  | [] => true
  | v :: rest => keepsKeys v && itemsKeepKeys rest
termination_by structural vs => vs

/-- Whether no two keys of a mapping in the values of a mapping become one when they are written as text. -/
def entriesKeepKeys : List (Scalar × Value) → Bool
  | [] => true
  | (_, v) :: rest => keepsKeys v && entriesKeepKeys rest
termination_by structural es => es

end

/-- Items keep their entries exactly if each of them does. -/
theorem itemsKeepKeys_iff {vs : List Value} : itemsKeepKeys vs = true ↔ ∀ v ∈ vs, v.keepsKeys = true := by
  induction vs with
  | nil => simp [itemsKeepKeys]
  | cons v rest ih => simp [itemsKeepKeys, ih]

/-- The values of entries keep their entries exactly if each of them does. -/
theorem entriesKeepKeys_iff {es : Entries Value} : entriesKeepKeys es = true ↔ ∀ e ∈ es, e.2.keepsKeys = true := by
  induction es with
  | nil => simp [entriesKeepKeys]
  | cons entry rest ih =>
    obtain ⟨key, v⟩ := entry
    simp [entriesKeepKeys, ih]

/-- Entries get their keys as texts one by one. -/
theorem textKeysEntries_eq_map (es : Entries Value) :
    textKeysEntries es = es.map fun e => (e.1.textKey, e.2.textKeys) := by
  induction es with
  | nil => rfl
  | cons entry rest ih => rw [textKeysEntries, ih, List.map_cons]

/-- Whether keys become one does not depend on the values of their entries. -/
theorem distinct_textKeysEntries {es : Entries Value} : Entries.Distinct (textKeysEntries es) ↔
    Entries.Distinct (es.map fun (key, v) => (key.textKey, v)) := by
  rw [textKeysEntries_eq_map, Entries.Distinct, Entries.Distinct, List.pairwise_map, List.pairwise_map]

mutual

/-- Writing keys as text leaves the document of a value as it is exactly if no two keys become one. -/
theorem document_textKeys {v : Value} (hv : v.isPlain = true) :
    v.textKeys.document = v.document ↔ v.keepsKeys = true := by
  match v, hv with
  | .scalar _, _ => exact iff_of_true rfl rfl
  | .list items, hv =>
    rw [textKeys, document, document, keepsKeys, Json.array.injEq]
    exact itemDocuments_textKeys hv
  | .map entries, hv =>
    rw [textKeys, document, document, keepsKeys, Json.object.injEq, Bool.and_eq_true, decide_eq_true_eq,
      ← distinct_textKeysEntries, ← memberDocuments_textKeys hv]
    constructor
    · intro h
      have hlength := congrArg List.length h
      simp only [memberDocuments_eq_map, List.length_map] at hlength
      have hdistinct : Entries.Distinct (textKeysEntries entries) :=
        Entries.length_ofList_eq_iff.mp (by rw [hlength, textKeysEntries_eq_map, List.length_map])
      rw [Entries.ofList_of_distinct hdistinct] at h
      exact ⟨hdistinct, h⟩
    · rintro ⟨hdistinct, h⟩
      rw [Entries.ofList_of_distinct hdistinct, h]
  | .pair first second, hv =>
    obtain ⟨hfirst, hsecond⟩ := Bool.and_eq_true_iff.mp hv
    rw [textKeys, reopen_of_isPlain hfirst, reopen_of_isPlain hsecond]
    exact iff_of_true rfl rfl
  | .set _, _ => exact iff_of_true rfl rfl

/-- Writing keys as text leaves the items of a list as they are exactly if no two keys become one. -/
theorem itemDocuments_textKeys {vs : List Value} (hvs : arePlain vs = true) :
    itemDocuments (textKeysList vs) = itemDocuments vs ↔ itemsKeepKeys vs = true := by
  match vs, hvs with
  | [], _ => exact iff_of_true rfl rfl
  | v :: rest, hvs =>
    obtain ⟨hv, hrest⟩ := Bool.and_eq_true_iff.mp hvs
    rw [textKeysList, itemDocuments, itemDocuments, itemsKeepKeys, List.cons.injEq, Bool.and_eq_true,
      document_textKeys hv, itemDocuments_textKeys hrest]

/-- Writing the keys of entries as text leaves their members as they are exactly if no two keys in their values
become one. -/
theorem memberDocuments_textKeys {es : List (Scalar × Value)} (hes : entriesPlain es = true) :
    memberDocuments (textKeysEntries es) = memberDocuments es ↔ entriesKeepKeys es = true := by
  match es, hes with
  | [], _ => exact iff_of_true rfl rfl
  | (key, v) :: rest, hes =>
    obtain ⟨hv, hrest⟩ := Bool.and_eq_true_iff.mp hes
    rw [textKeysEntries, memberDocuments, memberDocuments, entriesKeepKeys, List.cons.injEq, Prod.mk.injEq,
      Bool.and_eq_true, key.keyName_textKey, document_textKeys hv, memberDocuments_textKeys hrest, eq_self,
      true_and]

end

/-- The text of a structured step without self-reference is a JSON text. -/
theorem treeJson_of_stepText {v : Value} (hv : v.isPlain = true) {text : Text} (h : v.stepText = .ok text) :
    v.textKeys.treeJson .compact 0 = .ok text := by
  have hready := textKeys_readyIf hv
  have htally := obstacles_tally .compact v.textKeys
  have hcases := v.stepText_cases
  rw [spread_of_isPlain hv] at hcases
  rcases hcases with ⟨json, hjson, htext⟩ | ⟨kind, -, hfault⟩ | ⟨fault, hfirst, hother, htext⟩
  · obtain rfl := Except.ok.inj (htext.symm.trans h)
    exact hjson
  · exact absurd (hfault.symm.trans h) (by simp)
  · -- only an integer that is too long can be in the way, and then there is no display text either
    have hmem := List.mem_of_mem_head? hfirst
    cases fault with
    | key kind => exact absurd rfl (hother kind)
    | circular => exact absurd hready.plain (by rw [htally.circular.mp hmem]; decide)
    | write fault =>
      have hlong : v.treeWritable = false := by
        by_contra hwritable
        rw [Bool.not_eq_false] at hwritable
        exact absurd (hready.written hwritable) (by rw [htally.long.mp hmem]; decide)
      rw [htext, write, isWritable_of_isPlain hv, if_neg (by rw [hlong]; decide)] at h
      simp [Except.mapError] at h

/-- A structured step without self-reference has a text if the keys inside its pairs have names and no integer in it
is too long. A reader of that text finds all entries of the step in it, one member for each of them, exactly if no
two keys of a mapping become one text; in any case it finds the step with its keys written as text. -/
theorem stepText_members {v : Value} (hv : v.isPlain = true) :
    (v.namesKeys false = true → v.treeWritable = true → ∃ text, v.stepText = .ok text) ∧
      ∀ text, v.stepText = .ok text →
        Json.ofText? text = some v.textKeys.document ∧
          (Json.ofText? text = some v.document ↔ v.keepsKeys = true) := by
  refine ⟨fun hnames hwritable => ?_, fun text htext => ?_⟩
  · refine (stepText_written hv hnames).resolve_right ?_
    rintro ⟨hlong, -⟩
    exact absurd hwritable (by rw [hlong]; decide)
  · have hread := ofText?_of_treeJson (treeJson_of_stepText hv htext)
    refine ⟨hread, ?_⟩
    rw [hread, Option.some.injEq]
    exact document_textKeys hv

/-- A step with dates as keys, also inside an entry. -/
def openedOn : Value :=
  .map [(.date ⟨2024, 1, 1, by decide, by decide, by decide⟩, .text "open the page"),
    (.text "nested", .map [(.date ⟨2024, 2, 1, by decide, by decide, by decide⟩, .text "x")])]

/-- A step with a date as a key is read back from its text, with the date as a name. -/
theorem stepText_members_of_dates :
    openedOn.isPlain = true ∧ ∃ text, openedOn.stepText = .ok text ∧
      Json.ofText? text = some openedOn.document := by
  obtain ⟨hwritten, hread⟩ := stepText_members (v := openedOn) rfl
  obtain ⟨text, htext⟩ := hwritten rfl rfl
  exact ⟨rfl, text, htext, (hread text htext).2.mpr (by decide)⟩

/-- A step with a date and the text that shows it as keys. -/
def openedAndClosed : Value :=
  .map [(.date ⟨2024, 1, 1, by decide, by decide, by decide⟩, .text "open"), (.text "2024-01-01", .text "close")]

/-- The date and the text become one member, which has the value of the second: the entry of the date is lost. -/
theorem stepText_loses_entry :
    openedAndClosed.isPlain = true ∧ openedAndClosed.namesKeys false = true ∧ openedAndClosed.treeWritable = true ∧
      ∃ text, openedAndClosed.stepText = .ok text ∧
        Json.ofText? text = some (.object [("2024-01-01", .string "close")]) ∧
          Json.ofText? text ≠ some openedAndClosed.document := by
  have hjson : openedAndClosed.textKeys.treeJson .compact 0 = .ok "\x7b\"2024-01-01\":\"close\"\x7d" := rfl
  have hread := ofText?_of_treeJson hjson
  refine ⟨rfl, rfl, rfl, "\x7b\"2024-01-01\":\"close\"\x7d", rfl, hread, ?_⟩
  rw [hread, ne_eq, Option.some.injEq, document_textKeys rfl]
  decide

end TestPlan.Value
