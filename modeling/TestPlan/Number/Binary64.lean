/-!
# Binary floating-point numbers

The fractional numbers of a document: finite numbers `± mantissa · 2 ^ exponent` with a mantissa of at
most 53 bits, the two infinities, and "not a number". Nothing here is computed in machine arithmetic:
a number arises by rounding an exact ratio to the nearest representable one (`ofRatio`), a tie going
to the even mantissa, so that sums and products are the rounded exact sums and products.
-/

namespace TestPlan

/-- A number of the 64-bit binary format. -/
inductive Binary64
  | nan
  | infinite (negative : Bool)
  | finite (negative : Bool) (mantissa : Nat) (exponent : Int)
  deriving DecidableEq

namespace Binary64

/-- The exponent of the finest numbers, which zero has as well. -/
def minExponent : Int := -1074

/-- The exponent of the coarsest numbers. -/
def maxExponent : Int := 971

/-- The integer nearest to a ratio; a ratio half way between two goes to the even one. -/
def roundHalfEven (num den : Nat) : Nat :=
  let q := num / den
  let r := num % den
  if 2 * r < den || (2 * r == den && q % 2 == 0) then q else q + 1

/-- `num / den / 2 ^ e` as a pair of naturals. -/
def scaled (num den : Nat) (e : Int) : Nat × Nat :=
  if 0 ≤ e then (num, den * Nat.pow 2 e.toNat) else (num * Nat.pow 2 (-e).toNat, den)

/-- The exponent at which the mantissa of a positive ratio has exactly 53 bits. -/
def normalExponent (num den : Nat) : Int :=
  let e := (num.log2 : Int) - (den.log2 : Int) - 52
  let (n, d) := scaled num den e
  if n < Nat.pow 2 52 * d then e - 1 else e

/-- The representable number nearest to `± num / den`. -/
def ofRatio (negative : Bool) (num den : Nat) : Binary64 :=
  if num = 0 then finite negative 0 minExponent
  else
    let e := max minExponent (normalExponent num den)
    let (n, d) := scaled num den e
    let m := roundHalfEven n d
    let (m, e) := if m = Nat.pow 2 53 then (Nat.pow 2 52, e + 1) else (m, e)
    if e > maxExponent then infinite negative else finite negative m e

/-- The representable number nearest to `± digits · 10 ^ exponent`. Exponents far outside the range are
settled without computing the power. -/
def ofDecimal (negative : Bool) (digits : Nat) (exponent : Int) : Binary64 :=
  let size := exponent + (digits.log2 : Int) / 3
  if digits = 0 || size < -400 then finite negative 0 minExponent
  else if exponent > 400 then infinite negative
  else if 0 ≤ exponent then ofRatio negative (digits * Nat.pow 10 exponent.toNat) 1
  else ofRatio negative digits (Nat.pow 10 (-exponent).toNat)

/-- A signed integer times a power of two, as a sign, a numerator and a denominator. -/
def ofSigned (value : Int) (e : Int) : Binary64 :=
  let (n, d) := scaled value.natAbs 1 (-e)
  ofRatio (value < 0) n d

/-- The sum of two numbers, rounded once. -/
def add : Binary64 → Binary64 → Binary64
  | nan, _ => nan
  | _, nan => nan
  | infinite s, infinite t => if s = t then infinite s else nan
  | infinite s, finite .. => infinite s
  | finite .., infinite t => infinite t
  | finite s m e, finite t n f =>
    let low := min e f
    let signed (negative : Bool) (m : Nat) (e : Int) : Int :=
      let size : Int := ((m * Nat.pow 2 (e - low).toNat : Nat) : Int)
      if negative then -size else size
    let sum := signed s m e + signed t n f
    if sum = 0 then finite (s && t) 0 minExponent else ofSigned sum low

/-- The product of two numbers, rounded once; infinity times zero is not a number. -/
def mul : Binary64 → Binary64 → Binary64
  | nan, _ => nan
  | _, nan => nan
  | infinite s, infinite t => infinite (s != t)
  | infinite s, finite t n _ => if n = 0 then nan else infinite (s != t)
  | finite s m _, infinite t => if m = 0 then nan else infinite (s != t)
  | finite s m e, finite t n f =>
    let (num, den) := scaled (m * n) 1 (-(e + f))
    ofRatio (s != t) num den

/-- The same size with the other sign. -/
def negate : Binary64 → Binary64
  | nan => nan
  | infinite s => infinite !s
  | finite s m e => finite (!s) m e

/-- Whether a number is zero, of either sign. -/
def isZero : Binary64 → Bool
  | finite _ 0 _ => true
  | _ => false

/-- Whether a number is exactly the given integer. -/
def isInt (x : Binary64) (k : Int) : Bool :=
  match x with
  | finite s m e =>
    let (n, d) := scaled m 1 (-e)
    decide ((if s then -(n : Int) else (n : Int)) = k * (d : Int))
  | _ => false

/-- Equality of numbers: zero equals zero whatever its sign, and "not a number" equals nothing. -/
def sameNumber : Binary64 → Binary64 → Bool
  | nan, _ => false
  | _, nan => false
  | finite s m e, finite t n f => (m == 0 && n == 0) || (s == t && m == n && e == f)
  | x, y => x == y

end Binary64
end TestPlan
