import TestPlan.Proofs.Resolution

/-!
# Any bytes as a test case

A file holds bytes, and a test case is resolved from what they are read as (`TestCase.resolveBytes`). Bytes
that can be read as a document which is no test case that can be resolved are refused
(`TestCase.IsRefused`): they become a failed test case. Not all bytes are answered in this way, though. Bytes
that are no UTF-8, scalars without a value and integers that are too long to be written end the run
(`TestCase.Ends`), and nothing else does.
-/

namespace TestPlan

/-- The text in bytes, with unified newlines. -/
def Text.ofBytes (bytes : List UInt8) : Except Failure Text := do
  let chars ← (Text.decode bytes).mapError .encoding
  return .ofChars (Text.unifyNewlines chars)

/-- Bytes that are UTF-8 give the characters that they encode. -/
theorem Text.ofBytes_of_ok {bytes : List UInt8} {chars : List Char} (h : Text.decode bytes = .ok chars) :
    Text.ofBytes bytes = .ok (.ofChars (Text.unifyNewlines chars)) := by
  rw [ofBytes, h]
  rfl

/-- Bytes that are no UTF-8 give no text. -/
theorem Text.ofBytes_of_error {bytes : List UInt8} {fault : Text.Utf8Fault}
    (h : Text.decode bytes = .error fault) : Text.ofBytes bytes = .error (.encoding fault) := by
  rw [ofBytes, h]
  rfl

variable [Runtime]

/-- What the text in bytes is read as. -/
def Yaml.HeldIn (bytes : List UInt8) (document : Except Yaml.DocumentError Value) : Prop :=
  ∃ text, Text.ofBytes bytes = .ok text ∧ Yaml.read text = document

/-- The text in bytes is read as one thing only. -/
theorem Yaml.HeldIn.unique {bytes : List UInt8} {document other : Except Yaml.DocumentError Value}
    (h : Yaml.HeldIn bytes document) (h' : Yaml.HeldIn bytes other) : document = other := by
  obtain ⟨text, htext, rfl⟩ := h
  obtain ⟨own, hown, rfl⟩ := h'
  rw [Except.ok.inj (htext.symm.trans hown)]

namespace TestCase

/-- Resolve the definition in bytes. -/
def resolveBytes (x : Expander) (bytes : List UInt8) (name originalFile : Text) (filter : Option Text) :
    Run Failure (Option TestCase) :=
  match Text.ofBytes bytes with
  | .ok text => resolveText x text name originalFile filter
  | .error failure => Run.fail failure

/-- Bytes that can be read, but not as a test case that can be resolved. -/
inductive IsRefused (x : Expander) (filter : Option Text) (bytes : List UInt8) : Prop
  | malformed (h : Yaml.HeldIn bytes (.error .malformed))
  | invalid {definition : Value} (h : Yaml.HeldIn bytes (.ok definition))
      (hinvalid : problems .testCase definition ≠ [])
  | unexpanded {definition : Value} {failure : Failure} (h : Yaml.HeldIn bytes (.ok definition))
      (hvalid : problems .testCase definition = [])
      (hmatch : TagFilter.Matches filter (definition.field "tags").items?)
      (hexpand : (x.expand [] (listField definition "steps")).outcome = .error failure)

/-- The failures by which bytes end a run instead of becoming a test case. -/
inductive Ends (x : Expander) (bytes : List UInt8) : Failure → Prop
  | encoding {fault : Text.Utf8Fault} (h : Text.decode bytes = .error fault) : Ends x bytes (.encoding fault)
  | scalar {fault : Yaml.ScalarFault} (h : Yaml.HeldIn bytes (.error (.scalar fault))) :
      Ends x bytes (.scalar fault)
  | digits {definition : Value} {e : Failure} (h : Yaml.HeldIn bytes (.ok definition)) (he : e.IsDigitLimit)
      (hlong : ¬ (definition.treeWritable = true ∧ x.IsWritable)) : Ends x bytes e

/-- A document in bytes has no self-reference, and its pairs name their keys. -/
structure HoldsPlain (x : Expander) (bytes : List UInt8) : Prop where
  plain : ∀ definition, Yaml.HeldIn bytes (.ok definition) → definition.isPlain = true
  named : ∀ definition, Yaml.HeldIn bytes (.ok definition) → x.NamesKeys (listField definition "steps")

variable {x : Expander} {d : Int} {bytes : List UInt8} {name originalFile : Text} {filter : Option Text}
  {entry : Option TestCase}

omit [Runtime] in
/-- A definition becomes a failed test case exactly if it is invalid, or its steps are to be expanded and
cannot be. -/
theorem failed_iff_of_resolve {definition : Value}
    (h : (resolve x definition name originalFile filter).outcome = .ok entry) :
    (∃ error ≠ [], entry = some (failed name originalFile error)) ↔
      problems .testCase definition ≠ [] ∨
        problems .testCase definition = [] ∧ TagFilter.Matches filter (definition.field "tags").items? ∧
          ∃ failure, (x.expand [] (listField definition "steps")).outcome = .error failure := by
  have hproblems : problems .testCase definition = [] ↔ validate .testCase definition (some name) = .ok () :=
    problems_eq_nil_iff.trans validate_eq_ok_iff.symm
  rw [ne_eq, hproblems]
  cases hvalid : validate .testCase definition (some name) with
  | error e =>
    rw [resolve_of_invalid hvalid] at h
    split at h
    · exact iff_of_true ⟨e.message, e.message_ne_nil, (Except.ok.inj h).symm⟩ (.inl (by simp))
    · simp [Run.fail] at h
  | ok =>
    by_cases hmatch : TagFilter.Matches filter (definition.field "tags").items?
    · cases hexpand : (x.expand [] (listField definition "steps")).outcome with
      | ok steps =>
        rw [resolve_of_expanded hvalid hmatch hexpand] at h
        obtain rfl : some (complete definition name originalFile steps) = entry := Except.ok.inj h
        simp [complete, failed]
      | error failure =>
        rw [resolve_of_not_expanded hvalid hmatch hexpand] at h
        refine iff_of_true ?_ (.inr ⟨rfl, hmatch, failure, rfl⟩)
        rcases recover_cases name originalFile failure with ⟨error, herror, hfail⟩ | ⟨e, hfail⟩
        · rw [hfail] at h
          exact ⟨error, herror, (Except.ok.inj h).symm⟩
        · simp [hfail, Run.fail] at h
    · rw [resolve_of_mismatch hvalid hmatch] at h
      obtain rfl : none = entry := Except.ok.inj h
      simp [hmatch]

/-- Bytes become a failed test case exactly if they are refused. -/
theorem failed_iff_of_resolveBytes (h : (resolveBytes x bytes name originalFile filter).outcome = .ok entry) :
    (∃ error ≠ [], entry = some (failed name originalFile error)) ↔ IsRefused x filter bytes := by
  unfold resolveBytes at h
  cases htext : Text.ofBytes bytes with
  | error failure => simp [htext, Run.fail] at h
  | ok text =>
    simp only [htext, resolveText] at h
    cases hread : Yaml.read text with
    | error e =>
      cases e with
      | malformed =>
        simp only [hread] at h
        exact iff_of_true ⟨_, List.cons_ne_nil _ _, (Except.ok.inj h).symm⟩ (.malformed ⟨text, htext, hread⟩)
      | scalar fault => simp [hread, Run.fail] at h
    | ok definition =>
      simp only [hread] at h
      have hheld : Yaml.HeldIn bytes (.ok definition) := ⟨text, htext, hread⟩
      rw [failed_iff_of_resolve h]
      constructor
      · rintro (hinvalid | ⟨hvalid, hmatch, failure, hexpand⟩)
        · exact .invalid hheld hinvalid
        · exact .unexpanded hheld hvalid hmatch hexpand
      · intro hrefused
        cases hrefused with
        | malformed hother => exact absurd (hheld.unique hother) (by simp)
        | invalid hother hinvalid =>
          obtain rfl := Except.ok.inj (hheld.unique hother)
          exact .inl hinvalid
        | unexpanded hother hvalid hmatch hexpand =>
          obtain rfl := Except.ok.inj (hheld.unique hother)
          exact .inr ⟨hvalid, hmatch, _, hexpand⟩

/-- Without a filter no bytes are left out. -/
theorem resolveBytes_none_ne (x : Expander) (bytes : List UInt8) (name originalFile : Text) :
    (resolveBytes x bytes name originalFile none).outcome ≠ .ok none := by
  unfold resolveBytes
  split
  · exact resolveText_none_ne x _ name originalFile
  · simp [Run.fail]

/-- All bytes become a test case, are left out, or end the run. -/
theorem resolveBytes_answers (hd : x.maxDepth = some d) (htable : x.libraries.IsPlain)
    (hplain : HoldsPlain x bytes) (name originalFile : Text) (filter : Option Text) :
    (∃ entry, (resolveBytes x bytes name originalFile filter).outcome = .ok entry) ∨
      ∃ e, (resolveBytes x bytes name originalFile filter).outcome = .error e ∧ Ends x bytes e := by
  unfold resolveBytes
  cases hdecode : Text.decode bytes with
  | error fault =>
    rw [Text.ofBytes_of_error hdecode]
    exact .inr ⟨_, rfl, .encoding hdecode⟩
  | ok chars =>
    have htext := Text.ofBytes_of_ok hdecode
    rw [htext]
    rcases resolveText_answers hd htable (fun definition hread => hplain.plain definition ⟨_, htext, hread⟩)
      (fun definition hread => hplain.named definition ⟨_, htext, hread⟩) name originalFile filter with
      hanswer | ⟨fault, hfault, hread⟩ | ⟨e, he, hlimit, definition, hread, hlong⟩
    · exact .inl hanswer
    · exact .inr ⟨_, hfault, .scalar ⟨_, htext, hread⟩⟩
    · exact .inr ⟨e, he, .digits ⟨_, htext, hread⟩ hlimit hlong⟩

end TestCase
end TestPlan
