import TestPlan.Calendar
import TestPlan.Number.Binary64
import TestPlan.Text.Symbol

/-!
# Document values

What a document holds once it has been read: values without parts (`Scalar`), lists, mappings whose
entries keep their order, and, where a document asks for them, pairs and sets. Two mapping keys are one
key when they are the same number, whatever its form (`Scalar.sameKey`); an entry that is written again
keeps its first place and takes the new value (`Entries.insert`).

A document may contain itself, because an alias can name a container around it. The containers of such a
document are knots (`Value.knot`): indices into a finite graph of containers. `Value.view` opens any value
by one level and is all that most of the library needs.
-/

namespace TestPlan

/-- A value without parts. -/
inductive Scalar
  | null
  | bool (b : Bool)
  | int (n : Int)
  | float (x : Binary64)
  | text (s : Text)
  | date (d : Date)
  | datetime (t : DateTime)
  | bytes (bytes : List UInt8)
  deriving DecidableEq

namespace Scalar

/-- The integer that a truth value or an integer stands for among keys. -/
def asInt? : Scalar → Option Int
  | bool b => some (if b then 1 else 0)
  | int n => some n
  | _ => none

/-- Whether two keys are one key: the same number in any form, the same instant, or the same value. -/
def sameKey (a b : Scalar) : Bool :=
  match a, b with
  | float x, float y => x.sameNumber y
  | float x, b => b.asInt?.any x.isInt
  | a, float y => a.asInt?.any y.isInt
  | datetime t, datetime u => t.sameInstant u
  | a, b =>
    match a.asInt?, b.asInt? with
    | some m, some n => m == n
    | none, none => a == b
    | _, _ => false

/-- The name of a scalar's kind in messages. -/
def kindName : Scalar → String
  | null => "NoneType"
  | bool _ => "bool"
  | int _ => "int"
  | float _ => "float"
  | text _ => "str"
  | date _ => "date"
  | datetime _ => "datetime"
  | bytes _ => "bytes"

/-- Whether a scalar counts as present: null, false, zero, the empty text and no bytes do not. -/
def truthy : Scalar → Bool
  | null => false
  | bool b => b
  | int n => n != 0
  | float x => !x.isZero
  | text s => !s.isEmpty
  | date _ => true
  | datetime _ => true
  | bytes bs => !bs.isEmpty

/-- A key is the same as a text only if it is that text. -/
@[simp] theorem sameKey_text (key : Scalar) (s : Text) : key.sameKey (.text s) = (key == .text s) := by
  cases key <;> simp [sameKey, asInt?]

/-- A text is the same as a key only if the key is that text. -/
@[simp] theorem text_sameKey (s : Text) (key : Scalar) : (text s).sameKey key = (text s == key) := by
  cases key <;> simp [sameKey, asInt?]

end Scalar

/-- What a container of a graph holds at one place: a scalar, or the container with an index. -/
inductive Link
  | scalar (s : Scalar)
  | cell (index : Nat)
  deriving DecidableEq

/-- A container of a graph. -/
inductive Cell
  | list (items : List Link)
  | map (entries : List (Scalar × Link))
  | pair (first second : Link)
  | set (members : List Scalar)
  deriving DecidableEq

/-- Finitely many containers that may refer to each other and to themselves. -/
structure Graph where
  cells : Array Cell
  deriving DecidableEq

/-- The container at an index; an index outside the graph stands for an empty list. -/
def Graph.cell (g : Graph) (index : Nat) : Cell := g.cells[index]?.getD (.list [])

/-- A document value. -/
inductive Value
  | scalar (s : Scalar)
  | list (items : List Value)
  | map (entries : List (Scalar × Value))
  | pair (first second : Value)
  | set (members : List Scalar)
  | knot (graph : Graph) (index : Nat)

/-- A value opened by one level. -/
inductive View
  | scalar (s : Scalar)
  | list (items : List Value)
  | map (entries : List (Scalar × Value))
  | pair (first second : Value)
  | set (members : List Scalar)

/-- Ordered entries of a mapping. -/
abbrev Entries (α : Type) := List (Scalar × α)

namespace Entries
variable {α : Type}

/-- The value of the entry with a text as its key. -/
def find? (name : Text) : Entries α → Option α
  | [] => none
  | (key, value) :: rest => if key = .text name then some value else find? name rest

/-- Write an entry: an equal key keeps its place and its form, a new one comes last. -/
def insert (key : Scalar) (value : α) : Entries α → Entries α
  | [] => [(key, value)]
  | (k, v) :: rest => if k.sameKey key then (k, value) :: rest else (k, v) :: insert key value rest

/-- Write all entries of the second mapping over the first. -/
def overlay (below above : Entries α) : Entries α :=
  above.foldl (fun entries (key, value) => insert key value entries) below

/-- A mapping with these entries, written one after the other. -/
def ofList (entries : List (Scalar × α)) : Entries α := overlay [] entries

/-- After an entry has been written, a text finds it if the text is its key, and else what it found before. -/
theorem find?_insert (name : Text) (key : Scalar) (value : α) (entries : Entries α) :
    (entries.insert key value).find? name = if key = .text name then some value else entries.find? name := by
  induction entries with
  | nil => rfl
  | cons entry rest ih =>
    obtain ⟨k, v⟩ := entry
    by_cases hsame : k.sameKey key
    · have hk : k = .text name ↔ key = .text name := by
        constructor
        · rintro rfl
          exact (by simpa using hsame : Scalar.text name = key).symm
        · rintro rfl
          simpa using hsame
      rw [insert, if_pos hsame, find?, find?]
      by_cases hkey : key = .text name
      · rw [if_pos (hk.mpr hkey), if_pos hkey]
      · rw [if_neg (mt hk.mp hkey), if_neg hkey, if_neg (mt hk.mp hkey)]
    · rw [insert, if_neg hsame, find?, find?, ih]
      by_cases hk : k = .text name
      · have hkey : key ≠ .text name := by
          rintro rfl
          exact hsame (by simpa using hk)
        rw [if_pos hk, if_neg hkey, if_pos hk]
      · rw [if_neg hk, if_neg hk]

/-- Writing two groups of entries is writing the first and then the second. -/
theorem overlay_append (below first second : Entries α) :
    overlay below (first ++ second) = overlay (overlay below first) second := List.foldl_append

end Entries

namespace Value

/-- The null value. -/
abbrev null : Value := .scalar .null

/-- A text as a value. -/
abbrev text (s : Text) : Value := .scalar (.text s)

/-- An integer as a value. -/
abbrev int (n : Int) : Value := .scalar (.int n)

/-- The value at a place of a graph. -/
def ofLink (g : Graph) : Link → Value
  | .scalar s => .scalar s
  | .cell index => .knot g index

/-- Open a value by one level. -/
def view : Value → View
  | .scalar s => .scalar s
  | .list items => .list items
  | .map entries => .map entries
  | .pair first second => .pair first second
  | .set members => .set members
  | .knot g index =>
    match g.cell index with
    | .list items => .list (items.map (ofLink g))
    | .map entries => .map (entries.map fun (key, link) => (key, ofLink g link))
    | .pair first second => .pair (ofLink g first) (ofLink g second)
    | .set members => .set members

/-- The items of a list value. -/
def items? (v : Value) : Option (List Value) :=
  match v.view with
  | .list items => some items
  | _ => none

/-- The entries of a mapping value. -/
def entries? (v : Value) : Option (Entries Value) :=
  match v.view with
  | .map entries => some entries
  | _ => none

/-- The text of a text value. -/
def text? : Value → Option Text
  | .scalar (.text s) => some s
  | _ => none

/-- The value of a field of a mapping. -/
def field? (v : Value) (name : Text) : Option Value :=
  v.entries?.bind (Entries.find? name)

/-- The value of a field of a mapping, null when there is none. -/
def field (v : Value) (name : Text) : Value := (v.field? name).getD null

/-- Whether a value is null. -/
def isNull : Value → Bool
  | .scalar .null => true
  | _ => false

/-- Whether a value counts as present: null, false, zero, the empty text and empty containers do not. -/
def truthy (v : Value) : Bool :=
  match v.view with
  | .scalar s => s.truthy
  | .list items => !items.isEmpty
  | .map entries => !entries.isEmpty
  | .pair .. => true
  | .set members => !members.isEmpty

/-- The name of a value's kind in messages. -/
def kindName (v : Value) : String :=
  match v.view with
  | .scalar s => s.kindName
  | .list _ => "list"
  | .map _ => "dict"
  | .pair .. => "tuple"
  | .set _ => "set"

mutual

/-- Whether no container of a value contains itself. -/
def isPlain : Value → Bool
  | .scalar _ => true
  | .list items => arePlain items
  | .map entries => entriesPlain entries
  | .pair first second => isPlain first && isPlain second
  | .set _ => true
  | .knot .. => false
termination_by structural v => v

/-- Whether no value of a list has a container that contains itself. -/
def arePlain : List Value → Bool
  | [] => true
  | v :: rest => isPlain v && arePlain rest
termination_by structural vs => vs

/-- Whether no value of a mapping has a container that contains itself. -/
def entriesPlain : List (Scalar × Value) → Bool
  | [] => true
  | (_, v) :: rest => isPlain v && entriesPlain rest
termination_by structural es => es

end

end Value
end TestPlan
