import TestPlan.Text.Utf8

/-!
# File names

The name of a file is made of bytes, and a text names it by its UTF-8. Bytes that are no UTF-8 appear in a
text as halves of characters, one for each byte, and such halves stand for their bytes again. The other
halves stand for no bytes, so a text with one of them in it names no file (`unnameable?`).
-/

namespace TestPlan

/-- The name of a file. -/
abbrev FileName := List UInt8

namespace FileName

/-- The code of the half that would stand for a byte of zero; only bytes from 128 on have a half. -/
def byteHalf : Nat := 0xDC00

/-- The bytes of a symbol in a name. -/
def symbolBytes (s : Symbol) : List UInt8 :=
  if byteHalf + 0x80 ≤ s.code && s.code ≤ byteHalf + 0xFF && s.isHalf then [(s.code - byteHalf).toUInt8]
  else Text.utf8 s

/-- The name that a text stands for. -/
def ofText (text : Text) : FileName := text.flatMap symbolBytes

/-- The halves in a text that stand for no bytes, if there are such. -/
def unnameable? (text : Text) : Option Text.Halves :=
  Text.firstHalves? (fun s => (symbolBytes s).isEmpty) text

/-- The symbol that stands for a byte which is no UTF-8. -/
def escaped (b : UInt8) : Symbol := .ofCode (byteHalf + b.toNat)

/-- The text that stands for a name. -/
def text (name : FileName) : Text :=
  match name with
  | [] => []
  | b :: rest =>
    match Text.utf8Start b rest with
    | .char c following => .char c :: text (rest.drop following)
    | .faulty _ following => escaped b :: (rest.take following).map escaped ++ text (rest.drop following)
termination_by name.length
decreasing_by all_goals simp only [List.length_cons, List.length_drop]; omega

end FileName
end TestPlan
