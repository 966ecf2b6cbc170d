import TestPlan.Number.Digits
import TestPlan.Text.Quoted

/-!
# Bytes as text

Reading and writing UTF-8. Bytes that are no UTF-8 are refused with the place of the first faulty ones: a
byte that starts nothing, a sequence broken off by a byte that does not continue it, or one cut short by
the end. A text with halves of characters in it has no bytes, and `Halves.message` says why.
`unifyNewlines` makes every carriage return, with or without a line feed, one line feed.
-/

namespace TestPlan.Text

/-- What is wrong with bytes that are no UTF-8. -/
inductive Utf8Cause
  | start
  | continuation
  | ending
  deriving DecidableEq

/-- The faulty bytes: the first one, where it is, how many there are, and what is wrong. -/
structure Utf8Fault where
  byte : UInt8
  position : Nat
  count : Nat
  cause : Utf8Cause
  deriving DecidableEq

/-- The places of so many symbols or bytes from a position on, as messages name them. -/
def span (position count : Nat) : Text :=
  if count = 1 then " in position " ++ Number.text position
  else
    "s in position " ++ Number.text position ++ "-" ++ Number.text ((position + count - 1 : Nat) : Int)

namespace Utf8Fault

/-- What is said about a cause. -/
def reason : Utf8Cause → String
  | .start => "invalid start byte"
  | .continuation => "invalid continuation byte"
  | .ending => "unexpected end of data"

/-- What a fault says. -/
def message (fault : Utf8Fault) : Text :=
  "'utf-8' codec can't decode byte" ++
    (if fault.count = 1 then " 0x" ++ hex 2 fault.byte.toNat else "" : Text) ++
    span fault.position fault.count ++ ": " ++ reason fault.cause

end Utf8Fault

/-- What is said about halves in a text that is to become bytes. -/
def Halves.message (found : Halves) : Text :=
  "'utf-8' codec can't encode character" ++
    (if found.count = 1 then " '\\u" ++ hex 4 found.code ++ "'" else "" : Text) ++
    span found.position found.count ++ ": surrogates not allowed"

/-- How many bytes follow a first byte, and the range of the next one, which keeps out code points that
have a shorter form, halves of pairs, and code points beyond the last. -/
def sequence? (b : UInt8) : Option (Nat × UInt8 × UInt8) :=
  if b < 0x80 then some (0, 0, 0)
  else if b < 0xC2 then none
  else if b < 0xE0 then some (1, 0x80, 0xBF)
  else if b < 0xF0 then some (2, if b == 0xE0 then 0xA0 else 0x80, if b == 0xED then 0x9F else 0xBF)
  else if b < 0xF5 then some (3, if b == 0xF0 then 0x90 else 0x80, if b == 0xF4 then 0x8F else 0xBF)
  else none

/-- How many of the bytes that should follow a first byte are there and fit. -/
def fitting (low high : UInt8) : Nat → List UInt8 → Nat
  | 0, _ => 0
  | _, [] => 0
  | n + 1, b :: rest => if low ≤ b && b ≤ high then fitting 0x80 0xBF n rest + 1 else 0

/-- The code point of a sequence of bytes. -/
def codePoint (first : UInt8) (following : List UInt8) : Nat :=
  let lead := if following.isEmpty then first.toNat else first.toNat % Nat.pow 2 (6 - following.length)
  following.foldl (fun code b => code * 64 + b.toNat % 64) lead

/-- What a byte and those after it begin with. -/
inductive Utf8Start
  /-- a character, with the number of bytes that follow its first one -/
  | char (c : Char) (following : Nat)
  /-- something faulty, with the number of bytes that fit after the first one -/
  | faulty (cause : Utf8Cause) (following : Nat)

/-- What a byte and those after it begin with. -/
def utf8Start (b : UInt8) (rest : List UInt8) : Utf8Start :=
  match sequence? b with
  | none => .faulty .start 0
  | some (count, low, high) =>
    let found := fitting low high count rest
    if found < count then .faulty (if rest.length = found then .ending else .continuation) found
    else .char (Char.ofNat (codePoint b (rest.take count))) count

/-- Read bytes as UTF-8, starting at a position. -/
def decodeFrom (position : Nat) (bytes : List UInt8) : Except Utf8Fault (List Char) :=
  match bytes with
  | [] => .ok []
  | b :: rest =>
    match utf8Start b rest with
    | .faulty cause following => .error ⟨b, position, following + 1, cause⟩
    | .char c following => do
      let more ← decodeFrom (position + following + 1) (rest.drop following)
      return c :: more
termination_by bytes.length
decreasing_by simp only [List.length_cons, List.length_drop]; omega

/-- Read bytes as UTF-8. -/
def decode (bytes : List UInt8) : Except Utf8Fault (List Char) := decodeFrom 0 bytes

/-- The bytes of a character; a half has none. -/
def utf8 : Symbol → List UInt8
  | .char c => String.utf8EncodeChar c
  | .half _ => []

/-- Write a text as UTF-8, which has no form for halves. -/
def encode (text : Text) : Except Halves (List UInt8) :=
  match firstHalves? Symbol.isHalf text with
  | some found => .error found
  | none => .ok (text.flatMap utf8)

/-- One line feed for every carriage return, with or without a line feed, and for every line feed. -/
def unifyNewlines : List Char → List Char
  | [] => []
  | '\r' :: '\n' :: rest => '\n' :: unifyNewlines rest
  | c :: rest => (if c = '\r' then '\n' else c) :: unifyNewlines rest

end TestPlan.Text
