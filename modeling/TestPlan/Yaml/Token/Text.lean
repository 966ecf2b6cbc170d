import TestPlan.Yaml.Cursor
import TestPlan.Yaml.Error
import TestPlan.Number.Digits

/-!
# Texts of scalars

How the characters of a scalar give its text: quoted with single or double quotes, plain, or as a block
of lines. Every function takes the characters from the scalar's start on and returns the text with the
characters that are left. Line breaks inside quoted, plain and folded scalars are folded: a single break
becomes a blank, and of several the first is dropped. Only the escapes of double-quoted scalars bring
halves of characters into a text.
-/

namespace TestPlan.Yaml

/-- A text together with the characters after it. -/
abbrev Taken := Text × List Char

/-- The blanks, breaks and empty lines between two words of a scalar, once folded: a break at the end of
a line, and the breaks of the empty lines after it. -/
def folded (lineBreak : Char) (breaks : Text) : Text :=
  (if lineBreak != '\n' then [.char lineBreak] else if breaks.isEmpty then " " else []) ++ breaks

/-- The breaks of empty lines at the start of a line of a quoted scalar. A mark of a document's start or
end may not stand there. The first argument bounds the number of lines. -/
def emptyLines : Nat → List Char → Except DocumentError Taken
  | 0, _ => .error .malformed
  | fuel + 1, text =>
    if startsWithAnyMark text then .error .malformed
    else
      let text := text.dropWhile isBlank
      match lineBreak? text with
      | some (c, rest) => do
        let (more, rest) ← emptyLines fuel rest
        return (.char c :: more, rest)
      | none => return ([], text)

/-- The characters that a short escape of a double-quoted scalar stands for. -/
def shortEscape? (c : Char) : Option Char :=
  let code? : Option Nat :=
    match c with
    | '0' => some 0x00
    | 'a' => some 0x07
    | 'b' => some 0x08
    | 't' => some 0x09
    | '\t' => some 0x09
    | 'n' => some 0x0A
    | 'v' => some 0x0B
    | 'f' => some 0x0C
    | 'r' => some 0x0D
    | 'e' => some 0x1B
    | ' ' => some 0x20
    | '"' => some 0x22
    | '\\' => some 0x5C
    | '/' => some 0x2F
    | 'N' => some 0x85
    | '_' => some 0xA0
    | 'L' => some 0x2028
    | 'P' => some 0x2029
    | _ => none
  code?.map Char.ofNat

/-- How many hexadecimal digits follow the letter of a long escape. -/
def escapeWidth? : Char → Option Nat
  | 'x' => some 2
  | 'u' => some 4
  | 'U' => some 8
  | _ => none

/-- Whether a character is a hexadecimal digit. -/
def isHexDigit (c : Char) : Bool := (Number.digitValue? c).any fun d => decide (d < 16)

/-- The number of so many hexadecimal digits at the start of a text. -/
def hexCode? (width : Nat) (text : List Char) : Option (Nat × List Char) :=
  let digits := text.take width
  if digits.length == width && digits.all isHexDigit then
    some (Number.ofDigits 16 (.ofChars digits), text.drop width)
  else none

/-- The symbol with a code. -/
def codeSymbol (code : Nat) : Except DocumentError Symbol :=
  if code > 0x7FFFFFFF then .error (.scalar .characterWord)
  else if code > 0x10FFFF then .error (.scalar .characterCode)
  else .ok (.ofCode code)

/-- What the characters after a backslash stand for in a double-quoted scalar. -/
def escape (text : List Char) : Except DocumentError Taken :=
  match text with
  | [] => .error .malformed
  | c :: rest =>
    match shortEscape? c, escapeWidth? c, lineBreak? text with
    | some d, _, _ => .ok ([.char d], rest)
    | none, some width, _ =>
      match hexCode? width rest with
      | some (code, rest) => return ([← codeSymbol code], rest)
      | none => .error .malformed
    | none, none, some (_, rest) => emptyLines (rest.length + 1) rest
    | none, none, none => .error .malformed

/-- The text of a quoted scalar after its opening quote. The first argument bounds its length. -/
def quotedFrom (double : Bool) : Nat → List Char → Except DocumentError Taken
  | 0, _ => .error .malformed
  | fuel + 1, text =>
    let prepend (front : Text) (rest : List Char) : Except DocumentError Taken := do
      let (more, rest) ← quotedFrom double fuel rest
      return (front ++ more, rest)
    match text with
    | [] => .error .malformed
    | c :: rest =>
      if isBlank c || isBreak c then
        let blanks := text.takeWhile isBlank
        let after := text.dropWhile isBlank
        match lineBreak? after with
        | some (lineBreak, rest) => do
          let (breaks, rest) ← emptyLines (rest.length + 1) rest
          prepend (folded lineBreak breaks) rest
        | none => prepend (.ofChars blanks) after
      else if double then
        if c == '"' then .ok ([], rest)
        else if c == '\\' then do
          let (front, rest) ← escape rest
          prepend front rest
        else prepend [.char c] rest
      else if c == '\'' then
        match rest with
        | '\'' :: rest => prepend "'" rest
        | _ => .ok ([], rest)
      else prepend [.char c] rest

/-- The text of a quoted scalar after its opening quote. -/
def quotedText (double : Bool) (text : List Char) : Except DocumentError Taken :=
  quotedFrom double (text.length + 1) text

/-- The empty lines and blanks after a break in a plain scalar, up to the next word or to a mark of a
document's start or end. The flag says that such a mark has been reached, the number is the column. -/
structure PlainGap where
  breaks : Text
  marked : Bool
  column : Nat
  rest : List Char

/-- Read the lines after a break in a plain scalar. The first argument bounds their length. -/
def plainLines : Nat → Nat → List Char → PlainGap
  | 0, column, text => ⟨[], false, column, text⟩
  | fuel + 1, column, text =>
    match text with
    | ' ' :: rest => plainLines fuel (column + 1) rest
    | _ =>
      match lineBreak? text with
      | none => ⟨[], false, column, text⟩
      | some (c, rest) =>
        if startsWithAnyMark rest then ⟨[.char c], true, 0, rest⟩
        else
          let gap := plainLines fuel 0 rest
          { gap with breaks := .char c :: gap.breaks }

/-- A word of a plain scalar: characters up to a gap, a colon before a gap, or a flow indicator. -/
def plainWord (inFlow : Bool) : List Char → Taken
  | [] => ([], [])
  | c :: rest =>
    let next := first rest
    let ends :=
      isGap c || (c == ':' && (isGap next || (inFlow && ",[]\x7b\x7d".toList.contains next))) ||
        (inFlow && ",?[]\x7b\x7d".toList.contains c)
    if ends then ([], c :: rest)
    else
      let (word, rest) := plainWord inFlow rest
      (.char c :: word, rest)

/-- A plain scalar: its text, the characters left, and whether a line break precedes these. -/
structure PlainText where
  text : Text
  rest : List Char
  afterBreak : Bool

/-- The text of a plain scalar that continues only on lines indented to a column. The first argument
bounds the number of words; `spaces` is what stands before the next word. -/
def plainFrom (inFlow : Bool) (indent : Int) : Nat → (spaces : Text) → (afterBreak : Bool) →
    List Char → PlainText
  | 0, _, afterBreak, text => ⟨[], text, afterBreak⟩
  | fuel + 1, spaces, afterBreak, text =>
    let (word, rest) := plainWord inFlow text
    if first text == '#' || word.isEmpty then ⟨[], text, afterBreak⟩
    else
      let blanks := rest.takeWhile (· == ' ')
      let after := rest.dropWhile (· == ' ')
      let front := spaces ++ word
      match lineBreak? after with
      | none =>
        if blanks.isEmpty || first after == '#' then ⟨front, after, false⟩
        else
          let more := plainFrom inFlow indent fuel (.ofChars blanks) false after
          { more with text := front ++ more.text }
      | some (c, rest) =>
        if startsWithAnyMark rest then ⟨front, rest, true⟩
        else
          let gap := plainLines (rest.length + 1) 0 rest
          if gap.marked || first gap.rest == '#' || (!inFlow && (gap.column : Int) < indent) then
            ⟨front, gap.rest, true⟩
          else
            let more := plainFrom inFlow indent fuel (folded c gap.breaks) true gap.rest
            { more with text := front ++ more.text }

/-- The text of a plain scalar. -/
def plainText (inFlow : Bool) (indent : Int) (text : List Char) : PlainText :=
  plainFrom inFlow indent (text.length + 1) [] false text

/-- What happens to the line breaks at the end of a block scalar. -/
inductive Chomping
  | strip
  | clip
  | keep
  deriving DecidableEq

/-- The indicators after the sign of a block scalar: chomping and indentation, in either order. -/
def blockHeader (text : List Char) : Except DocumentError (Chomping × Option Nat × List Char) := do
  let chomping? : Char → Option Chomping
    | '+' => some .keep
    | '-' => some .strip
    | _ => none
  let indentation (text : List Char) : Except DocumentError (Option Nat × List Char) :=
    if Number.isDigit (first text) then
      if first text == '0' then .error .malformed
      else .ok (Number.digitValue? (first text), text.tail)
    else .ok (none, text)
  let (chomping, indent, rest) ← match chomping? (first text) with
    | some chomping => do
      let (indent, rest) ← indentation text.tail
      pure (chomping, indent, rest)
    | none => do
      let (indent, rest) ← indentation text
      match indent, chomping? (first rest) with
      | some n, some chomping => pure (chomping, some n, rest.tail)
      | _, _ => pure (.clip, indent, rest)
  if isSpaceOrEnd (first rest) then return (chomping, indent, rest) else throw .malformed

/-- The rest of a line that may hold only blanks and a comment, and its break. -/
def emptyRest (text : List Char) : Except DocumentError (List Char) :=
  let text := text.dropWhile (· == ' ')
  let text := if first text == '#' then text.dropWhile (! isBreak ·) else text
  match text with
  | [] => .ok []
  | _ =>
    match lineBreak? text with
    | some (_, rest) => .ok rest
    | none => .error .malformed

/-- The lines before the text of a block scalar: their breaks, the widest indentation among them and the
first line with text, the column reached, and the characters left. -/
def blockLead : Nat → (column widest : Nat) → List Char → Text × Nat × Nat × List Char
  | 0, column, widest, text => ([], widest, column, text)
  | fuel + 1, column, widest, text =>
    match text with
    | ' ' :: rest => blockLead fuel (column + 1) (max widest (column + 1)) rest
    | _ =>
      match lineBreak? text with
      | some (c, rest) =>
        let (breaks, widest, column, rest) := blockLead fuel 0 widest rest
        (.char c :: breaks, widest, column, rest)
      | none => ([], widest, column, text)

/-- Spaces at the start of a line, at most as many as the indentation. -/
def indentSpaces (indent : Nat) (text : List Char) : Nat × List Char :=
  let spaces := (text.take indent).takeWhile (· == ' ')
  (spaces.length, text.drop spaces.length)

/-- The empty lines before the next line of a block scalar: their breaks, the column reached, and the
characters left. -/
def blockGap : Nat → (indent : Nat) → List Char → Text × Nat × List Char
  | 0, _, text => ([], 0, text)
  | fuel + 1, indent, text =>
    let (column, rest) := indentSpaces indent text
    match lineBreak? rest with
    | some (c, rest) =>
      let (breaks, column, rest) := blockGap fuel indent rest
      (.char c :: breaks, column, rest)
    | none => ([], column, rest)

/-- The lines of a block scalar: the text, the break after the last line, the breaks of the empty lines
after that, and the characters left. -/
structure BlockLines where
  text : Text
  lastBreak : Text
  trailing : Text
  rest : List Char

/-- Read the lines of a block scalar from the first character of a line on, which is indented as far as
`column`; `breaks` are those of the empty lines before it. -/
def blockLines (foldLines : Bool) (indent : Nat) : Nat → (breaks : Text) → (column : Nat) →
    List Char → BlockLines
  | 0, breaks, _, text => ⟨[], [], breaks, text⟩
  | fuel + 1, breaks, column, text =>
    if column != indent || text.isEmpty then ⟨[], [], breaks, text⟩
    else
      let line := Text.ofChars (text.takeWhile (! isBreak ·))
      let after := text.dropWhile (! isBreak ·)
      let (lineBreak, rest) : Taken := match lineBreak? after with
        | some (c, rest) => ([.char c], rest)
        | none => ([], after)
      let (nextBreaks, nextColumn, rest) := blockGap (rest.length + 1) indent rest
      if nextColumn == indent && !rest.isEmpty then
        let plain := foldLines && lineBreak == "\n" && !isBlank (first text) && !isBlank (first rest)
        let joint : Text := if plain then (if nextBreaks.isEmpty then " " else []) else lineBreak
        let more := blockLines foldLines indent fuel nextBreaks nextColumn rest
        { more with text := breaks ++ line ++ joint ++ more.text }
      else ⟨breaks ++ line, lineBreak, nextBreaks, rest⟩

/-- The text of a block scalar after its sign, inside a block that is indented to a column. -/
def blockText (foldLines : Bool) (parent : Int) (text : List Char) : Except DocumentError Taken := do
  let (chomping, increment, rest) ← blockHeader text
  let rest ← emptyRest rest
  let least := (max (parent + 1) 1).toNat
  let (indent, breaks, column, rest) :=
    match increment with
    | none =>
      let (breaks, widest, column, rest) := blockLead (rest.length + 1) 0 0 rest
      (max least widest, breaks, column, rest)
    | some n =>
      let indent := least + n - 1
      let (breaks, column, rest) := blockGap (rest.length + 1) indent rest
      (indent, breaks, column, rest)
  let lines := blockLines foldLines indent (rest.length + 1) breaks column rest
  let ending := match chomping with
    | .strip => []
    | .clip => lines.lastBreak
    | .keep => lines.lastBreak ++ lines.trailing
  return (lines.text ++ ending, lines.rest)

end TestPlan.Yaml
