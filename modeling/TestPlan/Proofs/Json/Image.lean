import TestPlan.Proofs.Json.Document

/-!
# The documents that values are written as

A value is written as the document that has an item for every item of a list and a member for every entry of a
mapping, in their order (`Value.document`). A member has the text of its key as its name. So the text of a tree is
the text of its document (`Value.eq_text_of_treeJson`), which a reader finds in it again.
-/

namespace TestPlan

/-- A computation in two parts that has a result has one in its first part. -/
theorem exists_of_bind_eq_ok {ε α β : Type} {first : Except ε α} {next : α → Except ε β} {b : β}
    (h : (first >>= next) = .ok b) : ∃ a, first = .ok a ∧ next a = .ok b := by
  cases first with
  | ok a => exact ⟨a, rfl, h⟩
  | error e => exact absurd h nofun

namespace Scalar

/-- The name of a key in a document: its JSON text, or its display text where that would be quoted. -/
def keyName (key : Scalar) : Text :=
  match key.textKey with
  | text s => s
  | other => other.json

/-- A scalar as a document. Dates and bytes are strings there. -/
def document : Scalar → Json
  | null => .null
  | bool b => .bool b
  | int n => .number (.ofInt n)
  | float x => .number (.ofFloat x)
  | text s => .string s
  | date d => .string d.text
  | datetime t => .string t.text
  | bytes bs => .string (Text.quoteBytes bs)

/-- A scalar as a document has its own text, whatever the layout. -/
theorem text_document (layout : JsonLayout) (level : Nat) (s : Scalar) : s.document.text layout level = s.json := by
  cases s <;> rfl

/-- Writing a key as text does not change its name. -/
theorem keyName_textKey (key : Scalar) : key.textKey.keyName = key.keyName := by cases key <;> rfl

/-- What is written for a scalar is its text in JSON. -/
theorem eq_json_of_writeJson {s : Scalar} {text : Text} (h : s.writeJson = .ok text) : text = s.json := by
  unfold writeJson at h
  split at h
  · exact (Except.ok.inj h).symm
  · simp at h

/-- A key that has a JSON text has it as its name. -/
theorem eq_keyName_of_jsonKey {layout : JsonLayout} {key : Scalar} {name : Text}
    (h : key.jsonKey layout = .ok name) :
    name = key.keyName := by
  cases key with
  | text s => exact (Except.ok.inj h).symm
  | date d => exact absurd h nofun
  | datetime t => exact absurd h nofun
  | bytes bs => exact absurd h nofun
  | null => exact eq_json_of_writeJson h
  | bool b => exact eq_json_of_writeJson h
  | int n => exact eq_json_of_writeJson h
  | float x => exact eq_json_of_writeJson h

end Scalar

namespace Value

mutual

/-- A finite tree as a document, with an item for every item of a list and a member for every entry of a mapping. -/
def document : Value → Json
  | .scalar s => s.document
  | .list items => .array (itemDocuments items)
  | .map entries => .object (memberDocuments entries)
  | .pair first second => .array [document first, document second]
  | .set members => .string (setLiteral members)
  | .knot .. => .null
termination_by structural v => v

/-- The items of a list as documents. -/
def itemDocuments : List Value → List Json
  | [] => []
  | v :: rest => document v :: itemDocuments rest
termination_by structural vs => vs

/-- The entries of a mapping as members of an object. -/
def memberDocuments : List (Scalar × Value) → List (Text × Json)
  | [] => []
  | (key, v) :: rest => (key.keyName, document v) :: memberDocuments rest
termination_by structural es => es

end

mutual

/-- The JSON text of a tree is the text of its document. -/
theorem eq_text_of_treeJson {layout : JsonLayout} {level : Nat} {v : Value} {text : Text}
    (h : v.treeJson layout level = .ok text) : text = v.document.text layout level := by
  match v, h with
  | .scalar s, h => exact (Scalar.eq_json_of_writeJson h).trans (s.text_document layout level).symm
  | .list items, h =>
    obtain ⟨parts, hparts, heq⟩ := exists_of_bind_eq_ok h
    rw [document, Json.text, ← eq_itemTexts_of_itemsJson hparts]
    exact (Except.ok.inj heq).symm
  | .map entries, h =>
    obtain ⟨parts, hparts, heq⟩ := exists_of_bind_eq_ok h
    rw [document, Json.text, ← eq_memberTexts_of_entriesJson hparts]
    exact (Except.ok.inj heq).symm
  | .pair first second, h =>
    obtain ⟨one, hone, h⟩ := exists_of_bind_eq_ok h
    obtain ⟨two, htwo, heq⟩ := exists_of_bind_eq_ok h
    rw [document, Json.text, Json.itemTexts, Json.itemTexts, Json.itemTexts, ← eq_text_of_treeJson hone,
      ← eq_text_of_treeJson htwo]
    exact (Except.ok.inj heq).symm
  | .set members, h =>
    rw [treeJson] at h
    split at h
    · exact (Except.ok.inj h).symm
    · simp at h
  | .knot .., h => exact absurd h nofun

/-- The JSON texts of items are the texts of their documents. -/
theorem eq_itemTexts_of_itemsJson {layout : JsonLayout} {level : Nat} {vs : List Value} {parts : List Text}
    (h : itemsJson layout level vs = .ok parts) : parts = Json.itemTexts layout level (itemDocuments vs) := by
  match vs, h with
  | [], h => exact (Except.ok.inj h).symm
  | v :: rest, h =>
    obtain ⟨one, hone, h⟩ := exists_of_bind_eq_ok h
    obtain ⟨more, hmore, heq⟩ := exists_of_bind_eq_ok h
    rw [itemDocuments, Json.itemTexts, ← eq_text_of_treeJson hone, ← eq_itemTexts_of_itemsJson hmore]
    exact (Except.ok.inj heq).symm

/-- The JSON texts of entries are the texts of their members. -/
theorem eq_memberTexts_of_entriesJson {layout : JsonLayout} {level : Nat} {es : List (Scalar × Value)}
    {parts : List Text} (h : entriesJson layout level es = .ok parts) :
    parts = Json.memberTexts layout level (memberDocuments es) := by
  match es, h with
  | [], h => exact (Except.ok.inj h).symm
  | (key, v) :: rest, h =>
    obtain ⟨name, hname, h⟩ := exists_of_bind_eq_ok h
    obtain ⟨one, hone, h⟩ := exists_of_bind_eq_ok h
    obtain ⟨more, hmore, heq⟩ := exists_of_bind_eq_ok h
    rw [memberDocuments, Json.memberTexts, ← Scalar.eq_keyName_of_jsonKey hname, ← eq_text_of_treeJson hone,
      ← eq_memberTexts_of_entriesJson hmore]
    exact (Except.ok.inj heq).symm

end

/-- The JSON text of a tree is read as its document. -/
theorem ofText?_of_treeJson {layout : JsonLayout} {level : Nat} {v : Value} {text : Text}
    (h : v.treeJson layout level = .ok text) : Json.ofText? text = some v.document := by
  rw [eq_text_of_treeJson h, Json.ofText?_text]

/-- Members are the documents of the entries under the names of their keys. -/
theorem memberDocuments_eq_map (es : Entries Value) :
    memberDocuments es = es.map fun e => (e.1.keyName, e.2.document) := by
  induction es with
  | nil => rfl
  | cons entry rest ih => rw [memberDocuments, ih, List.map_cons]

end Value
end TestPlan
