import TestPlan.Number.Binary64
import TestPlan.Text.Symbol

/-!
# Digits

Values of digits, naturals written in a base, integers and fractional numbers in decimal. The readers
work on exactly the symbols they are given: separators and prefixes that a notation allows around the
digits are the caller's matter. Integers are read and written in decimal only up to a limit on the number
of their digits (`digitLimit`, `isWritable`).
-/

namespace TestPlan.Number

/-- The value of an ASCII digit or letter as a digit, up to base 36. -/
def digitValue? : Symbol → Option Nat
  | .char c =>
    if '0' ≤ c && c ≤ '9' then some (c.toNat - '0'.toNat)
    else if 'a' ≤ c && c ≤ 'z' then some (c.toNat - 'a'.toNat + 10)
    else if 'A' ≤ c && c ≤ 'Z' then some (c.toNat - 'A'.toNat + 10)
    else none
  | .half _ => none

/-- Whether a symbol is one of the ten ASCII digits. -/
def isDigit : Symbol → Bool
  | .char c => '0' ≤ c && c ≤ '9'
  | .half _ => false

/-- A natural in a base, most significant digit first; symbols without a value count as zero. -/
def ofDigits (base : Nat) (digits : Text) : Nat :=
  digits.foldl (fun n s => n * base + (digitValue? s).getD 0) 0

/-- An integer in decimal. -/
def text (n : Int) : String :=
  let digits := Nat.toDigits 10 n.natAbs
  String.ofList (if n < 0 then '-' :: digits else digits)

/-- The greatest number of decimal digits with which integers are read and written. -/
def digitLimit : Nat := 4300

/-- Whether an integer has few enough decimal digits to be written. -/
def isWritable (n : Int) : Bool := decide (n.natAbs < Nat.pow 10 digitLimit)

/-- A sign in front of a text, and what follows it. -/
def takeSign : Text → Bool × Text
  | .char '-' :: rest => (true, rest)
  | .char '+' :: rest => (false, rest)
  | rest => (false, rest)

/-- A signed decimal integer made of digits only. -/
def readInt? (text : Text) : Option Int :=
  let (negative, digits) := takeSign text
  if digits.isEmpty || !digits.all isDigit then none
  else
    let n : Int := ofDigits 10 digits
    some (if negative then -n else n)

/-- A decimal number: digits, a point that has a digit on at least one side, and an exponent. -/
def readDecimal? (text : Text) : Option Binary64 :=
  let (negative, rest) := takeSign text
  let whole := rest.takeWhile isDigit
  let rest := rest.dropWhile isDigit
  let (fraction, rest) :=
    match rest with
    | .char '.' :: rest => (rest.takeWhile isDigit, rest.dropWhile isDigit)
    | rest => ([], rest)
  if whole.isEmpty && fraction.isEmpty then none
  else
    let exponent? : Option Int :=
      match rest with
      | [] => some 0
      | s :: rest => if s == 'e' || s == 'E' then readInt? rest else none
    exponent?.map fun e =>
      Binary64.ofDecimal negative (ofDigits 10 (whole ++ fraction)) (e - fraction.length)

end TestPlan.Number
