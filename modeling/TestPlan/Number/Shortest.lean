import TestPlan.Number.Binary64

/-!
# The shortest decimal text of a number

A number is written with the fewest significant digits that still read back as the same number; among
those the nearest to it, and of two equally near ones the one that ends in an even digit. `digits`
searches the grids of one, two, … seventeen digits in exact integer arithmetic and takes the first
that meets the interval of reals which round to the number. `Notation` holds the decisions of one
output format: where positional notation ends, and how the exponent and the special numbers look.
-/

namespace TestPlan.Binary64

/-- The reals that round to a positive finite number, in quarters of its last binary place. -/
structure Interval where
  low : Nat
  value : Nat
  high : Nat
  closed : Bool

/-- Half the gap to each neighbour; below a power of two the lower gap is only half as wide. -/
def interval (mantissa : Nat) (exponent : Int) : Interval where
  low := 4 * mantissa - (if mantissa = Nat.pow 2 52 && exponent > minExponent then 1 else 2)
  value := 4 * mantissa
  high := 4 * mantissa + 2
  closed := mantissa % 2 == 0

/-- A decimal `coefficient · 10 ^ exponent`. -/
structure Decimal where
  coefficient : Nat
  exponent : Int

/-- Whether a real rounds to the number; it and a quarter of the last place are given in one unit. -/
def Interval.contains (i : Interval) (quarter x : Nat) : Bool :=
  if i.closed then i.low * quarter ≤ x && x ≤ i.high * quarter
  else i.low * quarter < x && x < i.high * quarter

/-- A quarter of the last binary place `2 ^ exponent` and a step of the grid `10 ^ k`, in a unit that makes both
of them integers. -/
def gridUnits (exponent : Int) (k : Int) : Nat × Nat :=
  let twos := exponent - 2
  let (q2, s2) := if 0 ≤ twos then (Nat.pow 2 twos.toNat, 1) else (1, Nat.pow 2 (-twos).toNat)
  let (q10, s10) := if 0 ≤ k then (1, Nat.pow 10 k.toNat) else (Nat.pow 10 (-k).toNat, 1)
  (q2 * q10, s2 * s10)

/-- The point of the grid `10 ^ k` that lies in the interval and is nearest to its value. -/
def gridPoint? (i : Interval) (exponent : Int) (k : Int) : Option Nat :=
  let (quarter, step) := gridUnits exponent k
  let value := i.value * quarter
  let inside (d : Nat) : Bool := i.contains quarter (d * step)
  let below := value / step
  let above := below + 1
  match inside below, inside above with
  | false, false => none
  | true, false => some below
  | false, true => some above
  | true, true =>
    let down := value - below * step
    let up := above * step - value
    if down < up || (down == up && below % 2 == 0) then some below else some above

/-- The decimal exponent of the leading digit of `num / den`. -/
def leadingPlace (num den : Nat) : Int :=
  -- at most one step off, because a decimal digit takes more than three bits and less than four
  let rec settle : Nat → Int → Int
    | 0, p => p
    | fuel + 1, p =>
      let (n, d) := if 0 ≤ p then (num, den * Nat.pow 10 p.toNat) else (num * Nat.pow 10 (-p).toNat, den)
      if n < d then settle fuel (p - 1)
      else if 10 * d ≤ n then settle fuel (p + 1)
      else p
  let bits := (num.log2 : Int) - (den.log2 : Int)
  settle 4 (bits * 30103 / 100000)

/-- The shortest decimal that reads back as the positive number `mantissa · 2 ^ exponent`. -/
def shortest (mantissa : Nat) (exponent : Int) : Decimal :=
  let (n, d) := scaled mantissa 1 (-exponent)
  let place := leadingPlace n d
  let i := interval mantissa exponent
  let found := (List.range 18).findSome? fun (after : Nat) =>
    (gridPoint? i exponent (place - after)).map fun c => Decimal.mk c (place - after)
  found.getD ⟨0, 0⟩

/-- The decisions of an output format for fractional numbers. -/
structure Notation where
  /-- the least power of ten that is written positionally -/
  lowestPlace : Int
  /-- the least power of ten that is written with an exponent again -/
  exponentFrom : Int
  nan : String
  infinite : String

/-- Significant digits without trailing zeros, and the place of the first one. -/
def significant (d : Decimal) : List Char × Int :=
  let all := (Nat.toDigits 10 d.coefficient)
  let kept := (all.reverse.dropWhile (· == '0')).reverse
  (kept, d.exponent + (all.length : Int) - 1)

/-- The exponent has a sign and at least two digits. -/
def exponentText (e : Int) : List Char :=
  let ds := Nat.toDigits 10 e.natAbs
  'e' :: (if e < 0 then '-' else '+') :: (if ds.length < 2 then '0' :: ds else ds)

/-- The text of a positive number; positional texts always have a point and a digit after it. -/
def positiveText (format : Notation) (mantissa : Nat) (exponent : Int) : List Char :=
  let (digits, place) := significant (shortest mantissa exponent)
  if format.lowestPlace ≤ place && place < format.exponentFrom then
    if place < 0 then
      '0' :: '.' :: List.replicate (-place - 1).toNat '0' ++ digits
    else
      let whole := (place + 1).toNat
      let front := digits.take whole
      let back := digits.drop whole
      front ++ List.replicate (whole - front.length) '0' ++ '.' :: (if back.isEmpty then ['0'] else back)
  else
    match digits with
    | [] => []
    | [d] => d :: exponentText place
    | d :: rest => d :: '.' :: rest ++ exponentText place

/-- The text of a number in a format. -/
def write (format : Notation) : Binary64 → String
  | nan => format.nan
  | infinite negative => (if negative then "-" else "") ++ format.infinite
  | finite negative mantissa exponent =>
    (if negative then "-" else "") ++
      (if mantissa = 0 then "0.0" else String.ofList (positiveText format mantissa exponent))

end TestPlan.Binary64
