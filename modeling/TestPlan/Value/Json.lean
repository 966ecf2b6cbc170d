import TestPlan.Value.Text

/-!
# Values as JSON

Writing values as JSON documents, on one line without blanks or over several lines. Dates, bytes and
sets become strings, pairs become lists. Three things have no JSON form: a container that contains itself,
a date or bytes as a key of a mapping, and an integer that is too long (`JsonFault`); the writer goes
through a value in order and reports the one it meets first.

`Value.stepText` is the text of a structured step. It first writes such keys as text, which can make two
keys one, and falls back to the display text for a value that contains itself. What is inside a pair
stays as it is.
-/

namespace TestPlan

/-- Why a value has no JSON form. -/
inductive JsonFault
  /-- a key of this kind in a mapping -/
  | key (kind : String)
  /-- a container inside itself -/
  | circular
  | write (fault : WriteFault)
  deriving DecidableEq

/-- What a fault says. -/
def JsonFault.message : JsonFault → Text
  | key kind => "keys must be str, int, float, bool or None, not " ++ kind
  | circular => "Circular reference detected"
  | write fault => fault.message

/-- How a JSON document is laid out. -/
inductive JsonLayout
  /-- one line without blanks -/
  | compact
  /-- one line for every item, indented by so many blanks a level -/
  | lines (indent : Nat)
  deriving DecidableEq

namespace JsonLayout

/-- The start of a line at a level. -/
def newline (layout : JsonLayout) (level : Nat) : Text :=
  match layout with
  | compact => ""
  | lines indent => .char '\n' :: List.replicate (indent * level) (.char ' ')

/-- What stands between a key and its value. -/
def colon : JsonLayout → String
  | compact => ":"
  | lines _ => ": "

/-- Written parts of a container at a level, between its brackets. -/
def bracket (layout : JsonLayout) (level : Nat) (opening closing : String) (parts : List Text) : Text :=
  if parts.isEmpty then opening ++ closing
  else
    opening ++ layout.newline (level + 1) ++ Text.joinWith ("," ++ layout.newline (level + 1)) parts ++
      layout.newline level ++ closing

/-- The name of the kind of a key that has no JSON form, which is a full one on one line. -/
def keyKind (layout : JsonLayout) (key : Scalar) : String :=
  match layout, key with
  | compact, .date _ => "datetime." ++ key.kindName
  | compact, .datetime _ => "datetime." ++ key.kindName
  | _, _ => key.kindName

end JsonLayout

/-- Fractional numbers in JSON: as in literals, with names for the special ones. -/
def jsonNumbers : Binary64.Notation := ⟨-4, 16, "NaN", "Infinity"⟩

namespace Scalar

/-- A scalar in JSON. -/
def json : Scalar → Text
  | null => "null"
  | bool b => if b then "true" else "false"
  | int n => Number.text n
  | float x => x.write jsonNumbers
  | text s => Text.jsonQuote s
  | date d => Text.jsonQuote d.text
  | datetime t => Text.jsonQuote t.text
  | bytes bs => Text.jsonQuote (Text.quoteBytes bs)

/-- A scalar in JSON, unless it is an integer that is too long. -/
def writeJson (s : Scalar) : Except JsonFault Text :=
  if s.isWritable then .ok s.json else .error (.write .tooManyDigits)

/-- The text of a key in JSON; dates and bytes have none. -/
def jsonKey (layout : JsonLayout) (key : Scalar) : Except JsonFault Text :=
  match key with
  | text s => .ok s
  | date _ => .error (.key (layout.keyKind key))
  | datetime _ => .error (.key (layout.keyKind key))
  | bytes _ => .error (.key (layout.keyKind key))
  | _ => key.writeJson

/-- A key, with its display text in place of a date or bytes. -/
def textKey : Scalar → Scalar
  | date d => text (date d).display
  | datetime t => text (datetime t).display
  | bytes bs => text (bytes bs).display
  | s => s

end Scalar

namespace Value

mutual

/-- A finite tree in JSON; a knot in it is a container inside itself. -/
def treeJson (layout : JsonLayout) (level : Nat) : Value → Except JsonFault Text
  | .scalar s => s.writeJson
  | .list items => do
    return layout.bracket level "[" "]" (← itemsJson layout (level + 1) items)
  | .map entries => do
    return layout.bracket level "\x7b" "\x7d" (← entriesJson layout (level + 1) entries)
  | .pair first second => do
    let first ← treeJson layout (level + 1) first
    return layout.bracket level "[" "]" [first, ← treeJson layout (level + 1) second]
  | .set members =>
    if members.all Scalar.isWritable then .ok (Text.jsonQuote (setLiteral members))
    else .error (.write .tooManyDigits)
  | .knot .. => .error .circular
termination_by structural v => v

/-- The items of a list in JSON. -/
def itemsJson (layout : JsonLayout) (level : Nat) : List Value → Except JsonFault (List Text)
  | [] => .ok []
  | v :: rest => do
    let first ← treeJson layout level v
    return first :: (← itemsJson layout level rest)
termination_by structural vs => vs

/-- The entries of a mapping in JSON. -/
def entriesJson (layout : JsonLayout) (level : Nat) :
    List (Scalar × Value) → Except JsonFault (List Text)
  | [] => .ok []
  | (key, v) :: rest => do
    let name ← key.jsonKey layout
    let first ← treeJson layout level v
    return (Text.jsonQuote name ++ layout.colon ++ first) :: (← entriesJson layout level rest)
termination_by structural es => es

end

/-- A value in JSON. -/
def json (layout : JsonLayout) (v : Value) : Except JsonFault Text := v.spread.treeJson layout 0

mutual

/-- A finite tree with all containers opened that are met again inside themselves. -/
def reopen : Value → Value
  | .scalar s => .scalar s
  | .list items => .list (reopenList items)
  | .map entries => .map (reopenEntries entries)
  | .pair first second => .pair (reopen first) (reopen second)
  | .set members => .set members
  | .knot g index => (Value.knot g index).spread
termination_by structural v => v

/-- The values of a list with all containers opened that are met again inside themselves. -/
def reopenList : List Value → List Value
  | [] => []
  | v :: rest => reopen v :: reopenList rest
termination_by structural vs => vs

/-- The values of a mapping with all containers opened that are met again inside themselves. -/
def reopenEntries : List (Scalar × Value) → List (Scalar × Value)
  | [] => []
  | (key, v) :: rest => (key, reopen v) :: reopenEntries rest
termination_by structural es => es

end

mutual

/-- A finite tree with all keys written as text that are dates or bytes, except inside pairs. Where a
container is met again inside itself, the container follows once more with its keys as they are. -/
def textKeys : Value → Value
  | .scalar s => .scalar s
  | .list items => .list (textKeysList items)
  | .map entries => .map (Entries.ofList (textKeysEntries entries))
  | .pair first second => .pair first.reopen second.reopen
  | .set members => .set members
  | .knot g index => (Value.knot g index).spread
termination_by structural v => v

/-- The values of a list with all keys written as text that are dates or bytes. -/
def textKeysList : List Value → List Value
  | [] => []
  | v :: rest => textKeys v :: textKeysList rest
termination_by structural vs => vs

/-- The entries of a mapping with all keys written as text that are dates or bytes. -/
def textKeysEntries : List (Scalar × Value) → List (Scalar × Value)
  | [] => []
  | (key, v) :: rest => (key.textKey, textKeys v) :: textKeysEntries rest
termination_by structural es => es

end

/-- The text of a structured step: JSON on one line, or the display text of a value that contains
itself. It fails with a key that has no JSON form, where that stands before the place where a container
closes on itself, and with an integer that is too long. -/
def stepText (v : Value) : Except JsonFault Text :=
  match v.spread.textKeys.treeJson .compact 0 with
  | .ok text => .ok text
  | .error (.key kind) => .error (.key kind)
  | .error _ => (v.write display).mapError .write

end Value
end TestPlan
