import TestPlan.Runtime

/-!
# The order of a set

The members of a set stand in the slots of a table, and a set is read slot by slot. Where a number goes
depends on its residue modulo a Mersenne prime (`Scalar.residue?`), the same for equal numbers of any form.
A number whose slot is taken moves on to the next free slot of the run that begins there, and from a run
without one to another run, which the further bits of its residue choose (`SlotTable.place`).

Where not all members are numbers, their order is left to the runtime (`Scalar.setOrder`).
-/

namespace TestPlan

/-- The modulus of residues, a prime; two to the sixty-first is one modulo it. -/
def residueModulus : Nat := Nat.pow 2 61 - 1

/-- The residue with a sign as an unsigned word. Minus one is set aside, and minus two stands for it. -/
def signedResidue (negative : Bool) (residue : Nat) : Nat :=
  if !negative || residue = 0 then residue
  else if residue = 1 then Nat.pow 2 64 - 2
  else Nat.pow 2 64 - residue

/-- The residue of a floating-point number, equal to that of the integer it may be; infinity has a number
of its own, and what is not a number has none. -/
def Binary64.residue? : Binary64 → Option Nat
  | nan => none
  | infinite negative => some (signedResidue negative 314159)
  | finite negative mantissa exponent =>
    some (signedResidue negative (mantissa * Nat.pow 2 (exponent % 61).toNat % residueModulus))

/-- The residue of a scalar that is a number. -/
def Scalar.residue? : Scalar → Option Nat
  | .float x => x.residue?
  | s => s.asInt?.map fun n => signedResidue (decide (n < 0)) (n.natAbs % residueModulus)

/-- A table of slots, each free or taken. -/
abbrev SlotTable := Array (Option Scalar)

namespace SlotTable

/-- The number of slots for so many members: eight for up to four, and else the least power of two above
twice their number. -/
def slotsFor (members : Nat) : Nat :=
  if members ≤ 4 then 8 else (2 * members + 1).nextPowerOfTwo

/-- The first free slot of the run that begins at a slot: ten slots where the table has that many from
there on, and else the one slot. -/
def freeInRun? (table : SlotTable) (start : Nat) : Option Nat :=
  (List.range' start (if start + 10 ≤ table.size then 10 else 1)).find? fun i => table[i]? == some none

/-- Put a member into the first free slot of the run at `start`, or of those that follow; `bits` is what is
left of its residue. The first argument bounds the number of runs. -/
def place (member : Scalar) : Nat → Nat → Nat → SlotTable → SlotTable
  | 0, _, _, table => table
  | rounds + 1, start, bits, table =>
    match table.freeInRun? start with
    | some slot => table.setIfInBounds slot (some member)
    | none => place member rounds ((start * 5 + 1 + bits / 32) % table.size) (bits / 32) table

/-- Put a member with a residue into a table. Once the bits of the residue are used up, which takes thirteen
runs, the runs begin at every slot in turn. -/
def insert (table : SlotTable) (member : Scalar) (residue : Nat) : SlotTable :=
  table.place member (table.size + 14) (residue % table.size) residue

end SlotTable

/-- The members of a set in its order. -/
def Scalar.setOrder [Runtime] (members : List Scalar) : List Scalar :=
  match members.mapM Scalar.residue? with
  | none => Runtime.arrange members
  | some residues =>
    let empty : SlotTable := Array.replicate (SlotTable.slotsFor members.length) none
    let table := (members.zip residues).foldl (fun table entry => table.insert entry.1 entry.2) empty
    table.toList.filterMap id

end TestPlan
