/-!
# Positions in a document

The character classes of document markup, and a position in a text: the characters that are left, how
many have been read, and line and column. The end of a text reads as the null character, which no
document holds (`isAllowed`), so that one look ahead needs no case of its own.
-/

namespace TestPlan.Yaml

/-- The characters that a document may hold. -/
def isAllowed (c : Char) : Bool :=
  let n := c.toNat
  n == 0x09 || n == 0x0A || n == 0x0D || (0x20 ≤ n && n ≤ 0x7E) || n == 0x85 ||
    (0xA0 ≤ n && n ≤ 0xD7FF) || (0xE000 ≤ n && n ≤ 0xFFFD) || 0x10000 ≤ n

/-- The character that the end of a text reads as. -/
def endMark : Char := Char.ofNat 0

/-- The mark that may stand before the first character of a text. -/
def byteOrderMark : Char := Char.ofNat 0xFEFF

/-- Whether a character breaks a line. -/
def isBreak (c : Char) : Bool :=
  c == '\n' || c == '\r' || c.toNat == 0x85 || c.toNat == 0x2028 || c.toNat == 0x2029

/-- Whether a character breaks a line, or is the end of the text. -/
def isBreakOrEnd (c : Char) : Bool := c == endMark || isBreak c

/-- Whether a character separates tokens without a tab. -/
def isSpaceOrEnd (c : Char) : Bool := c == ' ' || isBreakOrEnd c

/-- Whether a character separates tokens. -/
def isGap (c : Char) : Bool := c == '\t' || isSpaceOrEnd c

/-- A space or a tab. -/
def isBlank (c : Char) : Bool := c == ' ' || c == '\t'

/-- The characters of names of anchors and directives. -/
def isNameChar (c : Char) : Bool := c.isAlphanum || c == '-' || c == '_'

/-- The first character of a text, or the end mark. -/
def first (text : List Char) : Char := text.headD endMark

/-- The second character of a text, or the end mark. -/
def second (text : List Char) : Char := first text.tail

/-- A line break at the start of a text, as it counts in a scalar, and what follows. -/
def lineBreak? : List Char → Option (Char × List Char)
  | '\r' :: '\n' :: rest => some ('\n', rest)
  | c :: rest =>
    if c == '\n' || c == '\r' || c.toNat == 0x85 then some ('\n', rest)
    else if isBreak c then some (c, rest)
    else none
  | [] => none

/-- Whether a text starts with this mark of a document's start or end, and nothing is attached to it. -/
def startsWithMark (mark : Char) (text : List Char) : Bool :=
  text.take 3 == [mark, mark, mark] && isGap (first (text.drop 3))

/-- Whether a text starts with a mark of a document's start or end. -/
def startsWithAnyMark (text : List Char) : Bool := startsWithMark '-' text || startsWithMark '.' text

/-- A position in a text. -/
structure Cursor where
  rest : List Char
  index : Nat
  line : Nat
  column : Nat

namespace Cursor

/-- The start of a text. -/
def start (text : List Char) : Cursor := ⟨text, 0, 0, 0⟩

/-- The character at the position. -/
def char (c : Cursor) : Char := first c.rest

/-- The position after one more character. A carriage return that a line feed follows does not break the
line by itself, and a byte order mark takes no column. -/
def next (c : Cursor) : Cursor :=
  match c.rest with
  | [] => c
  | ch :: rest =>
    if isBreak ch && !(ch == '\r' && rest.head? == some '\n') then ⟨rest, c.index + 1, c.line + 1, 0⟩
    else if ch == byteOrderMark then ⟨rest, c.index + 1, c.line, c.column⟩
    else ⟨rest, c.index + 1, c.line, c.column + 1⟩

/-- The position after so many more characters. -/
def skip (c : Cursor) : Nat → Cursor
  | 0 => c
  | n + 1 => c.next.skip n

/-- The position at which a given end of the text is left. -/
def skipTo (c : Cursor) (rest : List Char) : Cursor := c.skip (c.rest.length - rest.length)

end Cursor
end TestPlan.Yaml
