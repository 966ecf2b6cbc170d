import TestPlan.Text.Symbol

/-!
# Bytes written in base 64

Reading bytes from text with 64 digits, four of which stand for three bytes. Characters that are no
digits are passed over. Equals signs fill up the last group of four, and whatever comes after a group that
is full this way is not looked at; a text that ends inside a group stands for no bytes.
-/

namespace TestPlan.Text.Base64

/-- The value of one of the 64 digits. -/
def digitValue? (c : Char) : Option Nat :=
  if 'A' ≤ c && c ≤ 'Z' then some (c.toNat - 'A'.toNat)
  else if 'a' ≤ c && c ≤ 'z' then some (c.toNat - 'a'.toNat + 26)
  else if '0' ≤ c && c ≤ '9' then some (c.toNat - '0'.toNat + 52)
  else if c == '+' then some 62
  else if c == '/' then some 63
  else none

/-- The bytes that the rest of a text adds. The last group has `count` digits so far, of which the bits in
`left` have not gone into a byte yet, and `filled` equals signs. -/
def decodeFrom (count left filled : Nat) : List Char → Option (List UInt8)
  | [] => if count = 0 then some [] else none
  | c :: rest =>
    if c == '=' then
      if count < 2 then decodeFrom count left filled rest
      else if count + filled + 1 < 4 then decodeFrom count left (filled + 1) rest
      else some []
    else
      match digitValue? c with
      | none => decodeFrom count left filled rest
      | some value =>
        match count with
        | 0 => decodeFrom 1 value 0 rest
        | 1 => (decodeFrom 2 (value % 16) 0 rest).map ((left * 4 + value / 16).toUInt8 :: ·)
        | 2 => (decodeFrom 3 (value % 4) 0 rest).map ((left * 16 + value / 4).toUInt8 :: ·)
        | _ => (decodeFrom 0 0 0 rest).map ((left * 64 + value).toUInt8 :: ·)

/-- The bytes that a text of ASCII characters stands for. -/
def decode (text : Text) : Option (List UInt8) := do
  let chars ← text.chars?
  if chars.all fun c => c.toNat < 0x80 then decodeFrom 0 0 0 chars else none

end TestPlan.Text.Base64
