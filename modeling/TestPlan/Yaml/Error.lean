import TestPlan.Value.Text

/-!
# Errors of documents

A text is no document when its markup is malformed. A well-formed document may still hold a scalar whose
form promises a value that does not exist, such as the 30th of February; that is a fault of its own kind.
-/

namespace TestPlan.Yaml

/-- Why a scalar has no value although its form asks for one. -/
inductive ScalarFault
  /-- a date or time that does not exist -/
  | calendar (fault : CalendarFault)
  /-- text that holds no integer in this base -/
  | notAnInteger (base : Nat) (text : Text)
  /-- a decimal integer with so many digits, which are too many -/
  | tooManyDigits (count : Nat)
  /-- a number without any character -/
  | noDigits
  /-- text that holds no number -/
  | notANumber (text : Text)
  /-- a number in sixties with too many parts -/
  | sixtiesTooLarge
  /-- text that is no truth value -/
  | notATruthValue (text : Text)
  /-- text that is no timestamp -/
  | notATimestamp
  /-- a mapping where a timestamp should be -/
  | timestampMapping
  /-- a mapping that stands for its own value -/
  | endless
  /-- a character code beyond the last one -/
  | characterCode
  /-- a character code beyond the last signed word -/
  | characterWord
  deriving DecidableEq

/-- How many symbols of a quoted text are shown at most. -/
def shownLimit : Nat := 200

/-- What a fault says. -/
def ScalarFault.message : ScalarFault → Text
  | calendar fault => fault.message
  | notAnInteger base text =>
    "invalid literal for int() with base " ++ Number.text base ++ ": " ++
      (Text.quote text).take shownLimit
  | tooManyDigits count =>
    "Exceeds the limit (" ++ Number.text Number.digitLimit ++
      " digits) for integer string conversion: value has " ++ Number.text count ++
      " digits; use sys.set_int_max_str_digits() to increase the limit"
  | noDigits => "string index out of range"
  | notANumber text => "could not convert string to float: " ++ Text.quote text
  | sixtiesTooLarge => "int too large to convert to float"
  | notATruthValue text => Text.quote text
  | notATimestamp => "'NoneType' object has no attribute 'groupdict'"
  | timestampMapping => "expected string or bytes-like object, got 'list'"
  | endless => "maximum recursion depth exceeded"
  | characterCode => "chr() arg not in range(0x110000)"
  | characterWord => "Python int too large to convert to C int"

/-- Why a text gives no value. -/
inductive DocumentError
  | malformed
  | scalar (fault : ScalarFault)
  deriving DecidableEq

end TestPlan.Yaml
