import TestPlan.Log

/-!
# Showing messages

Messages are shown on a terminal that understands markup: a word in square brackets changes the style of
the text after it. A message is put between the marks of its severity, and whatever in it could be taken
for markup is escaped with a backslash. In quiet mode only errors are shown.
-/

namespace TestPlan.Display

/-- Whether a symbol may follow the opening bracket of a mark. -/
def startsMark : Symbol → Bool
  | .char c => ('a' ≤ c && c ≤ 'z') || c == '#' || c == '/' || c == '@'
  | .half _ => false

/-- The rest of a mark up to its closing bracket, and what follows; no other mark may open in it. -/
def closeMark? : Text → Option (Text × Text)
  | [] => none
  | s :: rest =>
    if s == ']' then some ([s], rest)
    else if s == '[' then none
    else (closeMark? rest).map fun (inside, after) => (s :: inside, after)

/-- The rest after a mark is shorter than the text. -/
theorem closeMark?_length {text inside after : Text} (h : closeMark? text = some (inside, after)) :
    after.length < text.length := by
  induction text generalizing inside after with
  | nil => simp [closeMark?] at h
  | cons s rest ih =>
    unfold closeMark? at h
    split at h
    · obtain ⟨_, rfl⟩ : [s] = inside ∧ rest = after := by simpa using h
      simp
    · split at h
      · simp at h
      · obtain ⟨⟨inside', after'⟩, hrest, heq⟩ := Option.map_eq_some_iff.mp h
        obtain ⟨_, rfl⟩ : s :: inside' = inside ∧ after' = after := by simpa using heq
        have := ih hrest
        simp only [List.length_cons]
        omega

/-- A mark at the start of a text, and what follows. -/
def mark? : Text → Option (Text × Text)
  | .char '[' :: s :: rest =>
    if startsMark s then (closeMark? rest).map fun (inside, after) => (.char '[' :: s :: inside, after)
    else none
  | _ => none

/-- The rest after a mark is shorter than the text. -/
theorem mark?_length {text found after : Text} (h : mark? text = some (found, after)) :
    after.length < text.length := by
  unfold mark? at h
  split at h
  next s rest =>
    split at h
    · obtain ⟨⟨inside, after'⟩, hrest, heq⟩ := Option.map_eq_some_iff.mp h
      obtain ⟨_, rfl⟩ : .char '[' :: s :: inside = found ∧ after' = after := by simpa using heq
      have := closeMark?_length hrest
      simp only [List.length_cons]
      omega
    · simp at h
  · simp at h

/-- Escape marks. The number counts the backslashes right before the text: they are doubled in front of a
mark, which gets one more. -/
def escapeMarks (backslashes : Nat) (text : Text) : Text :=
  match h : mark? text with
  | some (found, after) =>
    have := mark?_length h
    List.replicate (2 * backslashes + 1) (.char '\\') ++ found ++ escapeMarks 0 after
  | none =>
    match text with
    | [] => List.replicate backslashes (.char '\\')
    | s :: rest =>
      if s = '\\' then escapeMarks (backslashes + 1) rest
      else List.replicate backslashes (.char '\\') ++ s :: escapeMarks 0 rest
termination_by text.length

/-- Double a backslash at the end, unless it is doubled already. -/
def closeText (text : Text) : Text :=
  match text.reverse with
  | .char '\\' :: .char '\\' :: _ => text
  | .char '\\' :: _ => text ++ "\\"
  | _ => text

/-- A text with everything escaped that could be taken for markup. -/
def escape (text : Text) : Text := closeText (escapeMarks 0 text)

/-- The sign in front of a message. -/
def sign : Severity → String
  | .info => "ℹ "
  | .warning => "⚠ "
  | .error => "✗ "

/-- The style of a message. -/
def style : Severity → String
  | .info => "dim"
  | .warning => "yellow"
  | .error => "bold red"

/-- A message without markup. -/
def plain (m : Message) : Text := sign m.severity ++ m.text

/-- A message between the marks of its style. -/
def render (m : Message) : Text :=
  let mark := style m.severity
  "[" ++ mark ++ "]" ++ sign m.severity ++ escape m.text ++ "[/" ++ mark ++ "]"

/-- Whether a message is shown: all are, but only errors in quiet mode. -/
def isShown (quiet : Bool) (m : Message) : Bool := !quiet || m.severity == .error

/-- The messages that are shown, in order. -/
def shown (quiet : Bool) (log : List Message) : List Message := log.filter (isShown quiet)

end TestPlan.Display
