import TestPlan.Number.Typed
import TestPlan.Text.Base64
import TestPlan.Text.Lowercase
import TestPlan.Text.Split
import TestPlan.Yaml.Error
import TestPlan.Yaml.Timestamp

/-!
# Scalars of documents

What a scalar stands for. The tag of a plain scalar follows from its form (`plainTag`): nothing, truth
values, integers in four bases or in sixties, fractional numbers, timestamps, the sign for merged
mappings, and text for all the rest. A line feed at the end of a scalar does not change its form. `read`
gives the value of a scalar under a tag, which may have been written over text of any form: numbers are
then read as people type them.
-/

namespace TestPlan.Yaml

/-- The tags that scalars and collections can have. -/
inductive Tag
  | null
  | bool
  | int
  | float
  | timestamp
  | text
  | merge
  | value
  | binary
  | sequence
  | mapping
  | set
  | orderedMap
  | pairs
  | unknown
  deriving DecidableEq

namespace Tag

/-- What the names of the standard tags begin with. -/
def standard : String := "tag:yaml.org,2002:"

/-- The tag with a full name. -/
def ofName (name : String) : Tag :=
  let known : List (String × Tag) :=
    [("null", null), ("bool", bool), ("int", int), ("float", float), ("timestamp", timestamp),
      ("str", text), ("merge", merge), ("value", value), ("binary", binary), ("seq", sequence),
      ("map", mapping), ("set", set), ("omap", orderedMap), ("pairs", pairs)]
  ((known.find? fun (short, _) => standard ++ short == name).map (·.2)).getD unknown

end Tag

namespace Scalar

/-- A word in lower case, with a capital, and in upper case. -/
def casings (word : String) : List Text :=
  let letters := word.toList
  let capital := (letters.take 1).map Char.toUpper ++ letters.drop 1
  [.ofChars letters, .ofChars capital, .ofChars (letters.map Char.toUpper)]

/-- Whether a text is one of these words in one of the three casings. -/
def isWord (words : List String) (text : Text) : Bool := words.any fun word => (casings word).contains text

/-- The words for true. -/
def trueWords : List String := ["yes", "true", "on"]

/-- The words for false. -/
def falseWords : List String := ["no", "false", "off"]

/-- Whether a plain text stands for nothing. -/
def isNullText (text : Text) : Bool := text == "" || text == "~" || isWord ["null"] text

/-- Whether a text is not empty and has only symbols of a class. -/
def nonemptyAll (class? : Symbol → Bool) (text : Text) : Bool := !text.isEmpty && text.all class?

/-- Digits of a base, or the underscores that may stand among them. -/
def isDigitOf (base : Nat) (s : Symbol) : Bool :=
  s == '_' || (Number.digitValue? s).any fun d => decide (d < base)

/-- A digit followed by digits and underscores. -/
def isDigits : Text → Bool
  | [] => false
  | s :: rest => Number.isDigit s && rest.all (isDigitOf 10)

/-- A number below sixty, of one or two digits. -/
def isSixty : Text → Bool
  | [s] => Number.isDigit s
  | [s, t] => (Number.digitValue? s).any (· < 6) && Number.isDigit t
  | _ => false

/-- A text without its sign. -/
def unsigned (text : Text) : Text := (Number.takeSign text).2

/-- Whether a plain text is an integer. -/
def isIntText (text : Text) : Bool :=
  match unsigned text with
  | .char '0' :: .char 'b' :: rest => nonemptyAll (isDigitOf 2) rest
  | .char '0' :: .char 'x' :: rest => nonemptyAll (isDigitOf 16) rest
  | .char '0' :: rest => rest.all (isDigitOf 8)
  | body =>
    match Text.split ':' body with
    | first :: others => isDigits first && first.head? != some '0' && others.all isSixty
    | [] => false

/-- Whether a text is the exponent of a fractional number, or nothing. -/
def isExponent : Text → Bool
  | [] => true
  | e :: sign :: digits =>
    (e == 'e' || e == 'E') && (sign == '+' || sign == '-') && nonemptyAll Number.isDigit digits
  | _ => false

/-- Whether a text is the end of a fractional number: digits after the point, and an exponent. -/
def isFraction (text : Text) : Bool := isExponent (text.dropWhile (isDigitOf 10))

/-- Whether a plain text is a fractional number. -/
def isFloatText (text : Text) : Bool :=
  let body := unsigned text
  if body.head? == some '.' then
    let after := body.drop 1
    (after == "inf" || after == "Inf" || after == "INF") ||
      (body == text &&
        (after == "nan" || after == "NaN" || after == "NAN" ||
          (after.head?.any Number.isDigit && isFraction after)))
  else
    match Text.cut? '.' body with
    | none => false
    | some (before, after) =>
      match Text.split ':' before with
      | [whole] => isDigits whole && isFraction after
      | whole :: others => isDigits whole && others.all isSixty && after.all (isDigitOf 10)
      | [] => false

/-- The symbols that give a scalar its form: without a line feed at the end, unless there is nothing
else. -/
def form (text : Text) : Text :=
  if text == "\n" then text else Text.dropFinalNewline text

/-- The tag of a plain scalar. A scalar that is nothing but a sign of markup has no meaning. -/
def plainTag (scalar : Text) : Tag :=
  let text := form scalar
  if isNullText text then .null
  else if isWord trueWords text || isWord falseWords text then .bool
  else if isIntText text then .int
  else if isFloatText text then .float
  else if Timestamp.isPlain text then .timestamp
  else if text == "<<" then .merge
  else if text == "=" then .value
  else if text == "!" || text == "&" || text == "*" then .unknown
  else .text

/-- An integer in a base. -/
def intIn (base : Nat) (text : Text) : Except ScalarFault Int :=
  (Number.readTyped base text).mapError fun
    | .noInteger => .notAnInteger base text
    | .tooManyDigits count => .tooManyDigits count

/-- The value of an integer scalar; underscores do not count. -/
def readInt (text : Text) : Except ScalarFault Int := do
  let (negative, body) := Number.takeSign (text.filter (· != '_'))
  let size ← match body with
    | [] => throw .noDigits
    | [.char '0'] => pure 0
    | .char '0' :: .char 'b' :: rest => intIn 2 rest
    | .char '0' :: .char 'x' :: rest => intIn 16 rest
    | .char '0' :: _ => intIn 8 body
    | _ => do
      let parts ← (Text.split ':' body).mapM (intIn 10)
      pure (parts.foldl (fun total part => total * 60 + part) 0)
  return if negative then -size else size

/-- A fractional number. -/
def readFraction (text : Text) : Except ScalarFault Binary64 :=
  match Number.readTypedFraction? text with
  | some x => .ok x
  | none => .error (.notANumber text)

/-- The sign of a fractional scalar, and the rest of it in lower case; underscores do not count. -/
def fractionParts (text : Text) : Bool × Text :=
  Number.takeSign (Text.lower (text.filter (· != '_')))

/-- The number of powers of sixty that are fractional numbers: 60 ^ 174 is beyond the largest. -/
def sixtyLimit : Nat := 174

/-- The powers of sixty that the parts of a number in sixties count, the last part first. -/
def sixties (parts : Nat) : Except ScalarFault (List Binary64) :=
  if sixtyLimit < parts then .error .sixtiesTooLarge
  else .ok ((List.range parts).map fun i => Binary64.ofRatio false (Nat.pow 60 i) 1)

/-- The value of a fractional scalar. A number in sixties is added up from its last part, with rounding
after every step. -/
def readFloat (text : Text) : Except ScalarFault Binary64 := do
  if text.all (· == '_') then throw .noDigits
  let (negative, body) := fractionParts text
  let size ←
    if body == ".inf" then pure (.infinite false)
    else if body == ".nan" then pure .nan
    else
      match Text.split ':' body with
      | [_] => readFraction body
      | parts => do
        let numbers ← parts.mapM readFraction
        let weighted := numbers.reverse.zipWith Binary64.mul (← sixties parts.length)
        pure (weighted.foldl Binary64.add (Binary64.ofRatio false 0 1))
  return if negative then size.negate else size

/-- Whether a fractional scalar is the word for what is not a number. -/
def isNanWord (text : Text) : Bool := (fractionParts text).2 == ".nan"

/-- The value of a truth value, in any casing. -/
def readBool (text : Text) : Except ScalarFault Bool :=
  let word := Text.lower text
  if trueWords.any (· == word) then .ok true
  else if falseWords.any (· == word) then .ok false
  else .error (.notATruthValue word)

/-- The value of a timestamp. -/
def readTimestamp (text : Text) : Except ScalarFault TestPlan.Scalar :=
  match Timestamp.parts? (form text) with
  | some parts => (Timestamp.value parts).mapError .calendar
  | none => .error .notATimestamp

/-- The value of a scalar under a tag; tags that scalars cannot have are malformed. -/
def read (tag : Tag) (text : Text) : Except DocumentError TestPlan.Scalar :=
  match tag with
  | .null => .ok .null
  | .text => .ok (.text text)
  | .bool => (.bool <$> readBool text).mapError .scalar
  | .int => (.int <$> readInt text).mapError .scalar
  | .float => (.float <$> readFloat text).mapError .scalar
  | .timestamp => (readTimestamp text).mapError .scalar
  | .binary =>
    match Text.Base64.decode text with
    | some bytes => .ok (.bytes bytes)
    | none => .error .malformed
  | _ => .error .malformed

end Scalar
end TestPlan.Yaml
