import TestPlan.Number.Digits
import TestPlan.Value.Basic

/-!
# Timestamps

Dates and date-times as documents write them: year, month and day joined by hyphens; optionally, after
`T` or blanks, hours, minutes and seconds joined by colons with a fraction of a second; and after that
`Z` or the distance from universal time. A text can have this form and still name no existing date.
-/

namespace TestPlan.Yaml.Timestamp

/-- The parts of a time of day as written. -/
structure Clock where
  hour : Nat
  minute : Nat
  second : Nat
  microsecond : Fin 1000000
  offset : Option Int

/-- The parts of a timestamp as written. `padded` says that month and day have two digits each. -/
structure Parts where
  year : Nat
  month : Nat
  day : Nat
  padded : Bool
  clock : Option Clock

/-- Between `least` and `most` digits at the start of a text, as many as there are. -/
def digits? (least most : Nat) (text : Text) : Option (Text × Text) :=
  let found := (text.take most).takeWhile Number.isDigit
  if found.length < least then none else some (found, text.drop found.length)

/-- What follows a symbol at the start of a text. -/
def after? (s : Symbol) : Text → Option Text
  | t :: rest => if t = s then some rest else none
  | [] => none

/-- Whether a symbol may stand between the parts of a timestamp. -/
def isGap (s : Symbol) : Bool := s == ' ' || s == '\t'

/-- The first six digits of a fraction of a second. -/
def microseconds (fraction : Text) : Fin 1000000 :=
  Fin.ofNat 1000000 (Number.ofDigits 10 ((fraction ++ "000000").take 6))

/-- The distance from universal time in minutes that ends a text; none where nothing is written. -/
def offset? (text : Text) : Option (Option Int) :=
  if text.isEmpty then some none
  else match text.dropWhile isGap with
    | [.char 'Z'] => some (some 0)
    | sign :: rest =>
      if sign == '+' || sign == '-' then do
        let (hours, rest) ← digits? 1 2 rest
        let minutes ← match rest with
          | [] => some []
          | _ => do
            let (minutes, rest) ← digits? 2 2 (← after? ':' rest)
            if rest.isEmpty then some minutes else none
        let total : Int := Number.ofDigits 10 hours * 60 + Number.ofDigits 10 minutes
        some (some (if sign == '-' then -total else total))
      else none
    | [] => none

/-- A time of day that ends a text. -/
def clock? (text : Text) : Option Clock := do
  let (hour, rest) ← digits? 1 2 text
  let (minute, rest) ← digits? 2 2 (← after? ':' rest)
  let (second, rest) ← digits? 2 2 (← after? ':' rest)
  let (fraction, rest) := match rest with
    | .char '.' :: rest => (rest.takeWhile Number.isDigit, rest.dropWhile Number.isDigit)
    | rest => ([], rest)
  let offset ← offset? rest
  some {
    hour := Number.ofDigits 10 hour
    minute := Number.ofDigits 10 minute
    second := Number.ofDigits 10 second
    microsecond := microseconds fraction
    offset := offset }

/-- The parts of a timestamp. -/
def parts? (text : Text) : Option Parts := do
  let (year, rest) ← digits? 4 4 text
  let (month, rest) ← digits? 1 2 (← after? '-' rest)
  let (day, rest) ← digits? 1 2 (← after? '-' rest)
  let clock ← match rest with
    | [] => some none
    | s :: rest =>
      if s == 'T' || s == 't' then (clock? rest).map some
      else if isGap s then (clock? (rest.dropWhile isGap)).map some
      else none
  some {
    year := Number.ofDigits 10 year
    month := Number.ofDigits 10 month
    day := Number.ofDigits 10 day
    padded := month.length == 2 && day.length == 2
    clock := clock }

/-- Whether a plain text is read as a timestamp: a date alone needs two digits for month and day. -/
def isPlain (text : Text) : Bool :=
  match parts? text with
  | some parts => parts.clock.isSome || parts.padded
  | none => false

/-- The date or date-time with these parts, if there is one. -/
def value (parts : Parts) : Except CalendarFault Scalar :=
  match parts.clock with
  | none => .date <$> Date.check parts.year parts.month parts.day
  | some clock => do
    let offset ← clock.offset.mapM Offset.check
    let date ← Date.check parts.year parts.month parts.day
    .datetime <$> DateTime.check date clock.hour clock.minute clock.second clock.microsecond offset

end TestPlan.Yaml.Timestamp
