import TestPlan.Number.Digits
import TestPlan.Number.Shortest
import TestPlan.Text.Quoted
import TestPlan.Value.Tree

/-!
# Values as text

Three texts of a value. The *literal* tells every two kinds apart: texts are quoted, dates spelled out
as calls. The *display* text is the literal except that a text stands for itself and a date has its
usual form; inside containers both are literal. The *parameter* text is what a value contributes to a
step: the display text, but nothing for null, and truth values as a document writes them.

A container met again inside itself is written as an ellipsis in its own brackets. Integers are written
only up to a limit on their digits; a value with a longer one in it is not `isWritable`, and whoever asks
for one of its texts fails with a `WriteFault`.
-/

namespace TestPlan

/-- Fractional numbers are positional from `0.0001` to below `10 ^ 16`. -/
def literalNumbers : Binary64.Notation := ⟨-4, 16, "nan", "inf"⟩

/-- A date spelled out as a call. -/
def Date.literal (d : Date) : Text :=
  "datetime.date(" ++ Text.listed ([d.year, d.month, d.day].map fun (n : Nat) => Number.text n) ++ ")"

/-- A span of minutes spelled out as a call, in days and seconds of a positive day. -/
def spanLiteral (minutes : Int) : Text :=
  let days := minutes.fdiv 1440
  let seconds := minutes.fmod 1440 * 60
  let part (name : String) (n : Int) : List Text := if n = 0 then [] else [name ++ "=" ++ Number.text n]
  let parts := part "days" days ++ part "seconds" seconds
  "datetime.timedelta(" ++ (if parts.isEmpty then "0" else Text.listed parts : Text) ++ ")"

/-- A distance from universal time spelled out as a call. -/
def Offset.literal (o : Offset) : Text :=
  if o.minutes = 0 then "datetime.timezone.utc"
  else "datetime.timezone(" ++ spanLiteral o.minutes ++ ")"

/-- What is said about a date or time that does not exist. -/
def CalendarFault.message : CalendarFault → Text
  | year y => "year " ++ Number.text y ++ " is out of range"
  | month => "month must be in 1..12"
  | day => "day is out of range for month"
  | hour => "hour must be in 0..23"
  | minute => "minute must be in 0..59"
  | second => "second must be in 0..59"
  | offset minutes =>
    "offset must be a timedelta strictly between -timedelta(hours=24) and timedelta(hours=24), not " ++
      spanLiteral minutes ++ "."

/-- A date-time spelled out as a call; seconds and microseconds are left out when nothing follows. -/
def DateTime.literal (t : DateTime) : Text :=
  let clock :=
    [t.date.year, t.date.month, t.date.day, t.hour, t.minute] ++
      (if t.second = 0 ∧ t.microsecond = 0 then [] else [t.second]) ++
      (if t.microsecond = 0 then [] else [t.microsecond])
  let zone : List Text := match t.offset with
    | none => []
    | some o => ["tzinfo=" ++ o.literal]
  let parts := clock.map fun (n : Nat) => Text.ofString (Number.text n)
  "datetime.datetime(" ++ Text.listed (parts ++ zone) ++ ")"

namespace Scalar

/-- The literal of a scalar. -/
def literal : Scalar → Text
  | null => "None"
  | bool b => if b then "True" else "False"
  | int n => Number.text n
  | float x => x.write literalNumbers
  | text s => Text.quote s
  | date d => d.literal
  | datetime t => t.literal
  | bytes bs => Text.quoteBytes bs

/-- The display text of a scalar. -/
def display : Scalar → Text
  | text s => s
  | date d => d.text
  | datetime t => t.text
  | s => s.literal

end Scalar

/-- Why a value has no text. -/
inductive WriteFault
  /-- an integer has more digits than are written -/
  | tooManyDigits
  deriving DecidableEq

/-- What a fault says. -/
def WriteFault.message : WriteFault → Text
  | tooManyDigits =>
    "Exceeds the limit (" ++ Number.text Number.digitLimit ++ " digits) for integer string conversion; " ++
      "use sys.set_int_max_str_digits() to increase the limit"

/-- Whether a scalar can be written. -/
def Scalar.isWritable : Scalar → Bool
  | .int n => Number.isWritable n
  | _ => true

namespace Value

/-- The literal of a set; the one without members is spelled out as a call. -/
def setLiteral (members : List Scalar) : Text :=
  if members.isEmpty then "set()" else "\x7b" ++ Text.listed (members.map Scalar.literal) ++ "\x7d"

mutual

/-- The literal of a finite tree; a knot is a container met again. -/
def treeLiteral : Value → Text
  | .scalar s => s.literal
  | .list items => "[" ++ Text.listed (treeLiterals items) ++ "]"
  | .map entries => "\x7b" ++ Text.listed (entryLiterals entries) ++ "\x7d"
  | .pair first second => "(" ++ treeLiteral first ++ ", " ++ treeLiteral second ++ ")"
  | .set members => setLiteral members
  | .knot g index =>
    match g.cell index with
    | .list _ => "[...]"
    | .map _ => "\x7b...\x7d"
    | .pair .. => "(...)"
    | .set members => setLiteral members
termination_by structural v => v

/-- The literals of the items of a list. -/
def treeLiterals : List Value → List Text
  | [] => []
  | v :: rest => treeLiteral v :: treeLiterals rest
termination_by structural vs => vs

/-- The literals of the entries of a mapping. -/
def entryLiterals : List (Scalar × Value) → List Text
  | [] => []
  | (key, v) :: rest => (key.literal ++ ": " ++ treeLiteral v) :: entryLiterals rest
termination_by structural es => es

end

/-- The literal of a value. -/
def literal (v : Value) : Text := v.spread.treeLiteral

mutual

/-- Whether every integer in a finite tree can be written. -/
def treeWritable : Value → Bool
  | .scalar s => s.isWritable
  | .list items => treesWritable items
  | .map entries => entriesWritable entries
  | .pair first second => treeWritable first && treeWritable second
  | .set members => members.all Scalar.isWritable
  | .knot .. => true
termination_by structural v => v

/-- Whether every integer in the items of a list can be written. -/
def treesWritable : List Value → Bool
  | [] => true
  | v :: rest => treeWritable v && treesWritable rest
termination_by structural vs => vs

/-- Whether every integer in the entries of a mapping can be written. -/
def entriesWritable : List (Scalar × Value) → Bool
  | [] => true
  | (key, v) :: rest => key.isWritable && treeWritable v && entriesWritable rest
termination_by structural es => es

end

/-- Whether a value can be written: no integer in it is too long. -/
def isWritable (v : Value) : Bool := v.spread.treeWritable

/-- The display text of a value. -/
def display : Value → Text
  | .scalar s => s.display
  | v => v.literal

/-- A text of a value, unless the value cannot be written. -/
def write (v : Value) (form : Value → Text) : Except WriteFault Text :=
  if v.isWritable then .ok (form v) else .error .tooManyDigits

/-- The text that a value contributes where a parameter or variable is used. -/
def parameterText : Value → Text
  | .scalar .null => ""
  | .scalar (.bool b) => if b then "true" else "false"
  | v => v.display

end Value
end TestPlan
