import TestPlan.Number.Digits
import TestPlan.Text.Decimal
import TestPlan.Text.Lowercase

/-!
# Numbers as people type them

Reading integers and fractional numbers that a person has typed: blanks around the number, a sign, and
the decimal digits of every script are allowed, single underscores between the digits of an integer, and
before an integer in base two, eight or sixteen the sign of that base. A decimal integer with more digits
than the limit is refused, whatever follows them.
-/

namespace TestPlan.Number

/-- Whether a symbol may stand around a typed number: white space, but not the separators that are control
characters. -/
def isPadding (s : Symbol) : Bool := Text.isBlank s && !(0x1C ≤ s.code && s.code ≤ 0x1F)

/-- The ASCII digit with the value of a digit of any script; other symbols stay. -/
def plainDigit (s : Symbol) : Symbol :=
  match Text.decimalDigit? s with
  | some value => .ofCode ('0'.toNat + value)
  | none => s

/-- A typed number without what may stand around it, and with ASCII digits. -/
def plainText (text : Text) : Text := (Text.trimBoth isPadding text).map plainDigit

/-- Why a text is read as no integer. -/
inductive IntFault
  | noInteger
  /-- there are more digits than the limit allows; their number is given -/
  | tooManyDigits (count : Nat)
  deriving DecidableEq

/-- Whether a symbol is a digit of a base. -/
def isDigitIn (base : Nat) (s : Symbol) : Bool := (digitValue? s).any fun d => decide (d < base)

/-- The digits at the start of a text, without the single underscores between them, and what follows. -/
def takeDigits (base : Nat) : Text → Text × Text
  | [] => ([], [])
  | s :: rest =>
    if isDigitIn base s then
      let (more, after) := takeDigits base rest
      (s :: more, after)
    else if s == '_' && rest.head?.any (isDigitIn base) then takeDigits base rest
    else ([], s :: rest)

/-- The letters that follow a zero in the sign of a base. -/
def baseLetters : Nat → Text
  | 2 => ['b', 'B']
  | 8 => ['o', 'O']
  | 16 => ['x', 'X']
  | _ => []

/-- A text without the sign of the base in front, and without the one underscore that may follow that. -/
def dropBaseSign (base : Nat) (text : Text) : Text :=
  match text with
  | .char '0' :: letter :: rest =>
    if (baseLetters base).contains letter then (if rest.head? == some '_' then rest.drop 1 else rest)
    else text
  | _ => text

/-- The natural number that digits of a base write; only decimal digits are limited. -/
def readDigits (base : Nat) (text : Text) : Except IntFault Nat :=
  let (digits, after) := takeDigits base text
  if base = 10 ∧ digitLimit < digits.length then .error (.tooManyDigits digits.length)
  else if text.head? == some '_' || digits.isEmpty || !after.isEmpty then .error .noInteger
  else .ok (ofDigits base digits)

/-- A typed integer in a base. -/
def readTyped (base : Nat) (text : Text) : Except IntFault Int := do
  let (negative, body) := takeSign (plainText text)
  let size ← readDigits base (dropBaseSign base body)
  return if negative then -(size : Int) else (size : Int)

/-- A typed fractional number, or a name of infinity or of what is not a number. -/
def readTypedFraction? (text : Text) : Option Binary64 :=
  let plain := plainText text
  let (negative, body) := takeSign plain
  let word := Text.lower body
  if word == "inf" || word == "infinity" then some (.infinite negative)
  else if word == "nan" then some .nan
  else readDecimal? plain

end TestPlan.Number
