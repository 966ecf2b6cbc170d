import TestPlan.Proofs.Json.Image
import TestPlan.Proofs.StepText

/-!
# Reading structured steps back

A value that is made of null, truth values, integers, texts, lists and mappings with texts as keys is the value of
the document that it is written as (`Value.IsFaithful`). Copying its keys leaves it as it is. So a reader of its
text gets the value itself, whatever symbols are in its texts, and two such values have one text only if they are
one value (`Value.stepText_reads_back`). Only an integer that is too long keeps one of them from having a text.
-/

namespace TestPlan

/-- Whether a scalar is null, a truth value, an integer or a text. -/
def Scalar.isBasic : Scalar → Bool
  | null | bool _ | int _ | text _ => true
  | float _ | date _ | datetime _ | bytes _ => false

/-- Whether a scalar is a text. -/
def Scalar.isText : Scalar → Bool
  | text _ => true
  | _ => false

/-- A key is a text exactly if it is one. -/
theorem Scalar.isText_iff {key : Scalar} : key.isText = true ↔ ∃ s, key = .text s := by
  cases key <;> simp [isText]

namespace Value

mutual

/-- Whether a value is made of null, truth values, integers, texts, lists, and mappings with texts as keys. -/
def isBasic : Value → Bool
  | .scalar s => s.isBasic
  | .list items => itemsBasic items
  | .map entries => decide (Entries.Distinct entries) && entriesBasic entries
  | .pair .. => false
  | .set _ => false
  | .knot .. => false
termination_by structural v => v

/-- Whether the items of a list are made of basic values. -/
def itemsBasic : List Value → Bool
  | [] => true
  | v :: rest => isBasic v && itemsBasic rest
termination_by structural vs => vs

/-- Whether the keys of a mapping are texts and its values are made of basic values. -/
def entriesBasic : List (Scalar × Value) → Bool
  | [] => true
  | (key, v) :: rest => key.isText && isBasic v && entriesBasic rest
termination_by structural es => es

end

/-- A value has no container inside itself, names its keys, stays as it is when its keys are copied, and is the
value of its document. -/
structure IsFaithful (v : Value) : Prop where
  plain : v.isPlain = true
  named : v.namesKeys true = true
  copied : v.textKeys = v
  read : v.document.value = v

/-- Basic scalars are read back. -/
theorem isFaithful_scalar {s : Scalar} (h : s.isBasic = true) : (Value.scalar s).IsFaithful := by
  cases s with
  | null => exact ⟨rfl, rfl, rfl, rfl⟩
  | bool b => exact ⟨rfl, rfl, rfl, rfl⟩
  | int n => exact ⟨rfl, rfl, rfl, congrArg Value.scalar (JsonNumber.scalar_ofInt n)⟩
  | text s => exact ⟨rfl, rfl, rfl, rfl⟩
  | float x => simp [Scalar.isBasic] at h
  | date d => simp [Scalar.isBasic] at h
  | datetime t => simp [Scalar.isBasic] at h
  | bytes bs => simp [Scalar.isBasic] at h

mutual

/-- Basic values are read from their documents. -/
theorem isFaithful_of_isBasic {v : Value} (hv : v.isBasic = true) : v.IsFaithful := by
  match v, hv with
  | .scalar s, hv => exact isFaithful_scalar hv
  | .list items, hv =>
    obtain ⟨hitems, hcopied, hread⟩ := itemsFaithful_of_itemsBasic hv
    refine ⟨arePlain_iff.mpr fun v hv => (hitems v hv).plain,
      itemsNameKeys_iff.mpr fun v hv => (hitems v hv).named, ?_, ?_⟩
    · rw [textKeys, hcopied]
    · rw [document, Json.value, hread]
  | .map entries, hv =>
    obtain ⟨hdistinct, hentries⟩ := Bool.and_eq_true_iff.mp hv
    have hdistinct := Entries.ofList_of_distinct (of_decide_eq_true hdistinct)
    obtain ⟨hentries, hcopied, hread⟩ := entriesFaithful_of_entriesBasic hentries
    refine ⟨entriesPlain_iff.mpr fun e he => (hentries e he).2.plain,
      entriesNameKeys_iff.mpr fun e he => ⟨(hentries e he).1, (hentries e he).2.named⟩, ?_, ?_⟩
    · rw [textKeys, hcopied, hdistinct]
    · rw [document, Json.value, hread, hdistinct]

/-- Lists of basic values are read from their documents. -/
theorem itemsFaithful_of_itemsBasic {vs : List Value} (hvs : itemsBasic vs = true) :
    (∀ v ∈ vs, v.IsFaithful) ∧ textKeysList vs = vs ∧ Json.itemValues (itemDocuments vs) = vs := by
  match vs, hvs with
  | [], _ => exact ⟨fun v hv => absurd hv List.not_mem_nil, rfl, rfl⟩
  | v :: rest, hvs =>
    obtain ⟨hv, hrest⟩ := Bool.and_eq_true_iff.mp hvs
    have hfirst := isFaithful_of_isBasic hv
    obtain ⟨hmore, hcopied, hread⟩ := itemsFaithful_of_itemsBasic hrest
    refine ⟨List.forall_mem_cons.mpr ⟨hfirst, hmore⟩, ?_, ?_⟩
    · rw [textKeysList, hfirst.copied, hcopied]
    · rw [itemDocuments, Json.itemValues, hfirst.read, hread]

/-- Entries with texts as keys and basic values are read from their members. -/
theorem entriesFaithful_of_entriesBasic {es : List (Scalar × Value)} (hes : entriesBasic es = true) :
    (∀ e ∈ es, (!true || e.1.isNamed) = true ∧ e.2.IsFaithful) ∧ textKeysEntries es = es ∧
      Json.memberValues (memberDocuments es) = es := by
  match es, hes with
  | [], _ => exact ⟨fun e he => absurd he List.not_mem_nil, rfl, rfl⟩
  | (key, v) :: rest, hes =>
    obtain ⟨hentry, hrest⟩ := Bool.and_eq_true_iff.mp hes
    obtain ⟨hkey, hv⟩ := Bool.and_eq_true_iff.mp hentry
    obtain ⟨s, rfl⟩ := Scalar.isText_iff.mp hkey
    have hfirst := isFaithful_of_isBasic hv
    obtain ⟨hmore, hcopied, hread⟩ := entriesFaithful_of_entriesBasic hrest
    refine ⟨List.forall_mem_cons.mpr ⟨⟨rfl, hfirst⟩, hmore⟩, ?_, ?_⟩
    · rw [textKeysEntries, hfirst.copied, hcopied]
      rfl
    · rw [memberDocuments, Json.memberValues, hfirst.read, hread]
      rfl

end

/-- The text of a basic value is JSON that has no white space outside of strings and is read as the value. -/
theorem stepText_of_isBasic {v : Value} (hv : v.isBasic = true) (hwritable : v.treeWritable = true) :
    ∃ text, v.stepText = .ok text ∧ (Json.ofText? text).map Json.value = some v ∧
      JsonPlace.outside.squeeze text = text := by
  have hfaithful := isFaithful_of_isBasic hv
  have htally := obstacles_tally .compact v
  have hnone := htally.eq_nil_iff.mpr ⟨hfaithful.plain, hfaithful.named, hwritable⟩
  obtain ⟨text, htext⟩ := (treeJson_stopsAt .compact 0 v).exists_eq_ok_iff.mpr hnone
  refine ⟨text, ?_, ?_, ?_⟩
  · rw [stepText, spread_of_isPlain hfaithful.plain, hfaithful.copied, htext]
  · rw [ofText?_of_treeJson htext, Option.map_some, hfaithful.read]
  · rw [eq_text_of_treeJson htext]
    exact (v.document.isCompact_text 0).squeezed

/-- A basic value with an integer that is too long has no text. -/
theorem stepText_of_isBasic_of_long {v : Value} (hv : v.isBasic = true) (hlong : v.treeWritable = false) :
    v.stepText = .error (.write .tooManyDigits) := by
  have hfaithful := isFaithful_of_isBasic hv
  have htally := obstacles_tally .compact v
  have hcases := v.stepText_cases
  rw [spread_of_isPlain hfaithful.plain, hfaithful.copied] at hcases
  rcases hcases with ⟨text, htext, -⟩ | ⟨kind, hfirst, -⟩ | ⟨fault, -, -, htext⟩
  · have hnone := (treeJson_stopsAt .compact 0 v).exists_eq_ok_iff.mp ⟨text, htext⟩
    exact absurd (htally.eq_nil_iff.mp hnone).2.2 (by rw [hlong]; decide)
  · exact absurd hfaithful.named (by rw [htally.key.mp ⟨kind, List.mem_of_mem_head? hfirst⟩]; decide)
  · rw [htext, write, isWritable_of_isPlain hfaithful.plain, hlong]
    rfl

/-- A value that is made of null, truth values, integers, texts, lists and mappings with texts as keys has a text as
a step exactly if no integer in it is too long. The text is JSON without white space outside of strings, a reader of
it gets the value, with all entries in their order, and no other such value has the same text. -/
theorem stepText_reads_back {v : Value} (hv : v.isBasic = true) :
    (v.treeWritable = true → ∃ text, v.stepText = .ok text ∧ (Json.ofText? text).map Json.value = some v ∧
      JsonPlace.outside.squeeze text = text) ∧
    (v.treeWritable = false → v.stepText = .error (.write .tooManyDigits)) ∧
    ∀ w text, w.isBasic = true → v.stepText = .ok text → w.stepText = .ok text → v = w := by
  have hread {u : Value} {text : Text} (hu : u.isBasic = true) (htext : u.stepText = .ok text) :
      (Json.ofText? text).map Json.value = some u := by
    cases hwritable : u.treeWritable with
    | true =>
      obtain ⟨other, hother, hread, -⟩ := stepText_of_isBasic hu hwritable
      rwa [Except.ok.inj (htext.symm.trans hother)]
    | false => exact absurd ((stepText_of_isBasic_of_long hu hwritable).symm.trans htext) (by simp)
  refine ⟨stepText_of_isBasic hv, stepText_of_isBasic_of_long hv, fun w text hw hvtext hwtext => ?_⟩
  exact Option.some.inj ((hread hv hvtext).symm.trans (hread hw hwtext))

/-- A step with texts that have quotes, line breaks and halves of characters in them. -/
def quotedStep : Value :=
  .map [(.text "say \"hi\"", .list [.null, .scalar (.bool true), .int (-3), .text "a\\b\nc"]),
    (.text [Symbol.half 0, Symbol.half 1024], .map [(.text "", .text "é")])]

/-- The step is read back from its text. -/
theorem stepText_reads_back_of_quotes :
    quotedStep.isBasic = true ∧ quotedStep.treeWritable = true ∧
      ∃ text, quotedStep.stepText = .ok text ∧ (Json.ofText? text).map Json.value = some quotedStep := by
  have hbasic : quotedStep.isBasic = true := by decide
  have hwritable : quotedStep.treeWritable = true := by decide +kernel
  obtain ⟨text, htext, hread, -⟩ := (stepText_reads_back hbasic).1 hwritable
  exact ⟨hbasic, hwritable, text, htext, hread⟩

/-- A list with the least integer that is too long has no text, and so there is nothing to read back. -/
theorem stepText_reads_back_otherwise :
    (Value.list [.int (Int.pow 10 Number.digitLimit)]).isBasic = true ∧
      (Value.list [.int (Int.pow 10 Number.digitLimit)]).stepText = .error (.write .tooManyDigits) := by
  have hlong : (Value.list [.int (Int.pow 10 Number.digitLimit)]).treeWritable = false := by
    rw [treeWritable, treesWritable, treeWritable, Scalar.isWritable, Number.isWritable_limit]
    rfl
  exact ⟨rfl, stepText_of_isBasic_of_long rfl hlong⟩

end Value
end TestPlan
