import TestPlan.Proofs.StepText.KeyNames

/-!
# Structured steps that contain themselves

The text of a structured step without self-reference is JSON on one line, and that of a step that contains itself is
its display text. Copying the keys of a step as text stops at a container that is met again inside itself, and
leaves the container with its keys as they are. Where all of these have names the step has a text unless an integer
in it is too long; otherwise it has none exactly if a key without a name is the first thing that the writer meets
that is in its way, before the place where the container closes on itself (`Value.stepText_total`).
-/

namespace TestPlan.Value

/-! ## Containers that are met again -/

/-- The parts of an opened value are the opened parts. -/
theorem reopen_mem_parts {v part : Value} (hpart : part ∈ v.parts) : part.reopen ∈ v.reopen.parts := by
  cases v with
  | list items =>
    rw [reopen, reopenList_eq_map]
    exact List.mem_map_of_mem hpart
  | map entries =>
    rw [reopen, reopenEntries_eq_map, parts, List.map_map]
    obtain ⟨entry, hentry, rfl⟩ := List.mem_map.mp hpart
    exact List.mem_map.mpr ⟨entry, hentry, rfl⟩
  | pair first second => exact List.mem_map_of_mem (f := reopen) hpart
  | scalar s => exact absurd hpart List.not_mem_nil
  | set members => exact absurd hpart List.not_mem_nil
  | knot g index => exact absurd hpart List.not_mem_nil

/-- A container that is met again is still there after it has been opened. -/
theorem isPlain_reopen_of_within {v : Value} {g : Graph} {index : Nat} (h : (Value.knot g index).Within v)
    (hloop : (Value.knot g index).spread.isPlain = false) : v.reopen.isPlain = false := by
  induction h with
  | here => exact hloop
  | inside hpart _ ih => exact isPlain_eq_false_of_part (reopen_mem_parts hpart) ih

/-- A container that is met again is still there after keys have been written as text, if no two keys become one. -/
theorem isPlain_textKeys_of_within {v : Value} {g : Graph} {index : Nat} (h : (Value.knot g index).Within v)
    (hloop : (Value.knot g index).spread.isPlain = false) (hkeeps : v.keepsKeys = true) :
    v.textKeys.isPlain = false := by
  induction h with
  | here => exact hloop
  | @inside v part hpart hwithin ih =>
    cases v with
    | list items =>
      have hcopied : part.textKeys ∈ (Value.list items).textKeys.parts := by
        rw [textKeys, textKeysList_eq_map]
        exact List.mem_map_of_mem hpart
      exact isPlain_eq_false_of_part hcopied (ih (itemsKeepKeys_iff.mp hkeeps part hpart))
    | map entries =>
      obtain ⟨entry, hentry, rfl⟩ := List.mem_map.mp hpart
      obtain ⟨hdistinct, hvalues⟩ := Bool.and_eq_true_iff.mp hkeeps
      have hdistinct := distinct_textKeysEntries.mpr (of_decide_eq_true hdistinct)
      have hcopied : entry.2.textKeys ∈ (Value.map entries).textKeys.parts := by
        rw [textKeys, Entries.ofList_of_distinct hdistinct, textKeysEntries_eq_map, parts, List.map_map]
        exact List.mem_map.mpr ⟨entry, hentry, rfl⟩
      exact isPlain_eq_false_of_part hcopied (ih (entriesKeepKeys_iff.mp hvalues entry hentry))
    | pair first second =>
      have hreopened : part.reopen ∈ (Value.pair first second).textKeys.parts :=
        List.mem_map_of_mem (f := reopen) hpart
      exact isPlain_eq_false_of_part hreopened (isPlain_reopen_of_within hwithin hloop)
    | scalar s => exact absurd hpart List.not_mem_nil
    | set members => exact absurd hpart List.not_mem_nil
    | knot g index => exact absurd hpart List.not_mem_nil

/-- A value that contains itself still does after its keys have been written as text, if no two keys become one. -/
theorem isPlain_textKeys_spread {v : Value} (h : v.spread.isPlain = false) (hkeeps : v.spread.keepsKeys = true) :
    v.spread.textKeys.isPlain = false := by
  obtain ⟨g, index, hwithin⟩ := isPlain_eq_false_iff.mp h
  exact isPlain_textKeys_of_within hwithin (isPlain_spread_of_within hwithin) hkeeps

/-! ## The text of a step -/

/-- A step has a text if the keys inside its pairs and those of containers that are met again have names, and no
integer in it is too long. -/
theorem stepText_of_loopsNameKeys {v : Value} (hnames : v.spread.namesKeys false = true)
    (hloops : v.spread.LoopsNameKeys) (hwritable : v.isWritable = true) :
    ∃ text, v.stepText = .ok text ∧
      (v.spread.isPlain = true → Json.ofText? text = some v.spread.textKeys.document ∧
        JsonPlace.outside.squeeze text = text) ∧
      (v.spread.isPlain = false → v.spread.keepsKeys = true → text = v.display) := by
  have htally := obstacles_tally .compact v.spread.textKeys
  have hstops := treeJson_stopsAt .compact 0 v.spread.textKeys
  rcases v.stepText_cases with ⟨text, hjson, htext⟩ | ⟨kind, hfirst, -⟩ | ⟨fault, hfirst, -, htext⟩
  · refine ⟨text, htext, fun _ => ⟨ofText?_of_treeJson hjson, ?_⟩, fun hloop hkeeps => ?_⟩
    · rw [eq_text_of_treeJson hjson]
      exact (Json.isCompact_text 0 _).squeezed
    · have hnone := hstops.exists_eq_ok_iff.mp ⟨text, hjson⟩
      exact absurd (htally.eq_nil_iff.mp hnone).1 (by rw [isPlain_textKeys_spread hloop hkeeps]; decide)
  · have hunnamed := htally.key.mp ⟨kind, List.mem_of_mem_head? hfirst⟩
    exact absurd (namesKeys_textKeys hnames hloops) (by rw [hunnamed]; decide)
  · refine ⟨v.display, ?_, fun hplain => ?_, fun _ _ => rfl⟩
    · rw [htext, write, if_pos hwritable]
      rfl
    · have hready := textKeys_readyIf hplain
      have hnone := htally.eq_nil_iff.mpr ⟨hready.plain, hready.named hnames, hready.written hwritable⟩
      rw [hnone] at hfirst
      simp at hfirst

/-- A step has a text if no integer in it is too long, and the keys inside its pairs and those of containers that
are met again inside themselves have names: JSON on one line where no container contains itself, and the display
text where one does and no two keys become one. It fails with a key exactly if the key is the first thing that is in
the way of the copied step, and with an integer only if one is too long; a container inside itself is never
reported. -/
theorem stepText_total (v : Value) :
    (v.spread.namesKeys false = true → v.spread.LoopsNameKeys → v.isWritable = true →
      ∃ text, v.stepText = .ok text ∧
      (v.spread.isPlain = true → Json.ofText? text = some v.spread.textKeys.document ∧
        JsonPlace.outside.squeeze text = text) ∧
      (v.spread.isPlain = false → v.spread.keepsKeys = true → text = v.display)) ∧
    (∀ kind, v.stepText = .error (.key kind) ↔
      (v.spread.textKeys.obstacles .compact).head? = some (.key kind)) ∧
    ∀ fault, v.stepText = .error fault →
      (∃ kind, fault = .key kind) ∨ fault = .write .tooManyDigits ∧ v.isWritable = false := by
  have hdisplay {fault : JsonFault} (h : (v.write display).mapError JsonFault.write = .error fault) :
      fault = .write .tooManyDigits ∧ v.isWritable = false := by
    cases hwritable : v.isWritable with
    | true =>
      rw [write, if_pos hwritable] at h
      simp [Except.mapError] at h
    | false =>
      rw [write, hwritable] at h
      exact ⟨(Except.error.inj h).symm, rfl⟩
  have hstops := treeJson_stopsAt .compact 0 v.spread.textKeys
  refine ⟨stepText_of_loopsNameKeys, fun kind => ?_, fun fault hfault => ?_⟩
  · rcases v.stepText_cases with ⟨text, hjson, htext⟩ | ⟨first, hfirst, hfault⟩ | ⟨first, hfirst, hother, htext⟩
    · rw [htext, hstops.exists_eq_ok_iff.mp ⟨text, hjson⟩]
      simp
    · rw [hfault, hfirst, Except.error.injEq, Option.some.injEq]
    · rw [htext, hfirst, Option.some.injEq]
      exact ⟨fun h => absurd (hdisplay h).1 (by simp), fun h => absurd h (hother kind)⟩
  · rcases v.stepText_cases with ⟨text, -, htext⟩ | ⟨first, -, hkey⟩ | ⟨first, -, -, htext⟩
    · exact absurd (htext.symm.trans hfault) (by simp)
    · exact .inl ⟨first, (Except.error.inj (hkey.symm.trans hfault)).symm⟩
    · exact .inr (hdisplay (htext.symm.trans hfault))

/-- The graph of a list that holds a text and itself. -/
def loopedList : Graph := ⟨#[.list [.scalar (.text "a"), .cell 0]]⟩

/-- The list has a text and itself as its items. -/
theorem spread_loopedList : (Value.knot loopedList 0).spread = .list [.text "a", .knot loopedList 0] := by
  have hinner : loopedList.unroll ((List.range 1).erase 0) 0 = .knot loopedList 0 :=
    Graph.unroll_of_not_mem (by decide)
  rw [spread, ← hinner, Graph.unroll, dif_pos (by decide)]
  rfl

/-- A list that contains itself is written as a literal, with dots in place of the inner list. -/
theorem stepText_total_of_loop : (Value.knot loopedList 0).spread.isPlain = false ∧
    (Value.knot loopedList 0).stepText = .ok "['a', [...]]" := by
  have hspread := spread_loopedList
  have hloop : (Value.knot loopedList 0).spread.isPlain = false := by rw [hspread]; rfl
  have hnames : (Value.knot loopedList 0).spread.namesKeys true = true := by rw [hspread]; rfl
  have hpairs : (Value.knot loopedList 0).spread.namesKeys false = true := by rw [hspread]; rfl
  have hkeeps : (Value.knot loopedList 0).spread.keepsKeys = true := by rw [hspread]; rfl
  have hwritable : (Value.knot loopedList 0).isWritable = true := by rw [isWritable, hspread]; rfl
  obtain ⟨text, htext, -, hdisplay⟩ :=
    (stepText_total (.knot loopedList 0)).1 hpairs (loopsNameKeys_of_namesKeys hnames) hwritable
  have hliteral : (Value.knot loopedList 0).display = "['a', [...]]" := by
    change (Value.knot loopedList 0).spread.treeLiteral = _
    rw [hspread]
    rfl
  exact ⟨hloop, by rw [htext, hdisplay hloop hkeeps, hliteral]⟩

/-- The graph of a mapping that holds itself as the value of a key. -/
def loopedMap (key : Scalar) : Graph := ⟨#[.map [(key, .cell 0)]]⟩

/-- The mapping has itself under its key. -/
theorem spread_loopedMap (key : Scalar) :
    (Value.knot (loopedMap key) 0).spread = .map [(key, .knot (loopedMap key) 0)] := by
  have hinner : (loopedMap key).unroll ((List.range 1).erase 0) 0 = .knot (loopedMap key) 0 :=
    Graph.unroll_of_not_mem (by decide)
  have hrange : List.range (loopedMap key).cells.size = List.range 1 := rfl
  rw [spread, ← hinner, hrange, Graph.unroll, dif_pos (by decide)]
  rfl

/-- A mapping that holds itself under a key without a name has no text: the mapping that follows once more is
written with the key as it is, before it is met again. -/
theorem stepText_of_unnamed_loop {key : Scalar} (h : key.isNamed = false) :
    (Value.knot (loopedMap key) 0).stepText = .error (.key (JsonLayout.compact.keyKind key)) := by
  have hnamed : ∃ name, key.textKey = .text name := by
    cases key with
    | date d => exact ⟨_, rfl⟩
    | datetime t => exact ⟨_, rfl⟩
    | bytes bs => exact ⟨_, rfl⟩
    | _ => simp [Scalar.isNamed] at h
  obtain ⟨name, hname⟩ := hnamed
  have hjson : (Value.knot (loopedMap key) 0).spread.textKeys.treeJson .compact 0 =
      .error (.key (JsonLayout.compact.keyKind key)) := by
    rw [spread_loopedMap, textKeys, textKeysEntries, textKeysEntries, textKeys, spread_loopedMap, hname]
    simp only [Entries.ofList, Entries.overlay, List.foldl_cons, List.foldl_nil, Entries.insert, treeJson,
      entriesJson, Scalar.jsonKey_of_unnamed .compact h]
    rfl
  rw [stepText, hjson]

/-- A mapping that holds itself under a date contains itself and can be written, but has no text. -/
theorem stepText_total_otherwise :
    let key : Scalar := .date ⟨2024, 1, 1, by decide, by decide, by decide⟩
    let v := Value.knot (loopedMap key) 0
    v.spread.isPlain = false ∧ v.isWritable = true ∧ v.stepText = .error (.key "datetime.date") := by
  intro key v
  have hspread : v.spread = .map [(key, v)] := spread_loopedMap key
  refine ⟨by rw [hspread]; rfl, by rw [isWritable, hspread]; rfl, ?_⟩
  exact stepText_of_unnamed_loop rfl

end TestPlan.Value
