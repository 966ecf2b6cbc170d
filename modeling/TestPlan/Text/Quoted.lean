import TestPlan.Text.Printable

/-!
# Quoted texts

Three ways of writing between quotes. `quote` is the form that messages use for a text: single quotes
unless the text itself has single quotes and no double ones, with escapes for unprintable symbols.
`quoteBytes` is the same for bytes, which show as the ASCII characters that they are, and as escapes
where they are none. `jsonQuote` is the form of JSON documents: double quotes, and escapes only where JSON
demands them, so that other symbols stay as they are.
-/

namespace TestPlan.Text

/-- A number in lower-case hexadecimal with a fixed count of digits. -/
def hex (width n : Nat) : Text :=
  let digits := Nat.toDigits 16 n
  ofChars (List.replicate (width - digits.length) '0' ++ digits)

/-- The double quote where it saves escaping single ones, otherwise the single quote. -/
def quoteMark (text : Text) : Symbol :=
  if text.contains '\'' && !text.contains '"' then '"' else '\''

/-- One symbol inside quotes. -/
def quoteSymbol (mark s : Symbol) : Text :=
  if s == mark || s == '\\' then ['\\', s]
  else if s == '\n' then "\\n"
  else if s == '\r' then "\\r"
  else if s == '\t' then "\\t"
  else if isPrintable s then [s]
  else if s.code ≤ 0xFF then "\\x" ++ hex 2 s.code
  else if s.code ≤ 0xFFFF then "\\u" ++ hex 4 s.code
  else "\\U" ++ hex 8 s.code

/-- A text between quotes, as messages show it. -/
def quote (text : Text) : Text :=
  let mark := quoteMark text
  mark :: text.flatMap (quoteSymbol mark) ++ [mark]

/-- Bytes between quotes, as messages show them. -/
def quoteBytes (bytes : List UInt8) : Text :=
  let text : Text := bytes.map fun b => Symbol.ofCode b.toNat
  let mark := quoteMark text
  let symbol (s : Symbol) : Text := if s.code < 0x7F then quoteSymbol mark s else "\\x" ++ hex 2 s.code
  "b" ++ mark :: text.flatMap symbol ++ [mark]

/-- One symbol inside a JSON string. -/
def jsonSymbol (s : Symbol) : Text :=
  if s == '"' || s == '\\' then ['\\', s]
  else if s == '\n' then "\\n"
  else if s == '\r' then "\\r"
  else if s == '\t' then "\\t"
  else if s.code == 0x08 then "\\b"
  else if s.code == 0x0C then "\\f"
  else if s.code < 0x20 then "\\u" ++ hex 4 s.code
  else [s]

/-- A text as a JSON string. -/
def jsonQuote (text : Text) : Text := "\"" ++ text.flatMap jsonSymbol ++ "\""

end TestPlan.Text
