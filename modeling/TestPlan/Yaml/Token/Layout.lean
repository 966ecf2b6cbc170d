import TestPlan.Text.Utf8
import TestPlan.Yaml.Token
import TestPlan.Yaml.Token.Text

/-!
# From characters to tokens

Cutting a text into tokens. Outside brackets the layout counts: a line that is indented further than the
block around it opens a block, and one that is indented less closes blocks. Anything that might be a key
is remembered as a candidate with its place among the tokens; a colon later on the same line makes it a
key, and the key token is put into that place.

`Layout.step` reads one token. Each step reads at least one character, so the number of characters
bounds the number of steps (`tokens`). A token that may still become a key cannot be told before it is
known whether it does; if the text breaks before that, the token is not among those that can be told
(`Layout.settled`).
-/

namespace TestPlan.Yaml

/-- Something that a colon may turn into a key. -/
structure KeyCandidate where
  /-- how many tokens stand before it -/
  place : Nat
  /-- nothing else may stand here, so the colon has to come -/
  required : Bool
  index : Nat
  line : Nat
  column : Nat

/-- The state of reading tokens: the position, the brackets and blocks that are open, the candidates for
keys by depth of brackets, and the tokens so far, last one first. -/
structure Layout where
  cursor : Cursor
  depth : Nat
  indent : Int
  outer : List Int
  keyAllowed : Bool
  candidates : List (Nat × KeyCandidate)
  tokens : List Token

namespace Layout

/-- The state before the first token. -/
def start (text : List Char) : Layout := ⟨.start text, 0, -1, [], true, [], []⟩

/-- The text that is left. -/
def rest (s : Layout) : List Char := s.cursor.rest

/-- Whether brackets are open. -/
def inFlow (s : Layout) : Bool := s.depth != 0

/-- Add a token. -/
def emit (s : Layout) (token : Token) : Layout := { s with tokens := token :: s.tokens }

/-- Put tokens behind the first so many. -/
def emitAt (s : Layout) (place : Nat) (tokens : List Token) : Layout :=
  let later := s.tokens.length - place
  { s with tokens := s.tokens.take later ++ tokens.reverse ++ s.tokens.drop later }

/-- Move on to where this end of the text is left. -/
def skipTo (s : Layout) (rest : List Char) : Layout := { s with cursor := s.cursor.skipTo rest }

/-- Move on by so many characters. -/
def skip (s : Layout) (count : Nat) : Layout := { s with cursor := s.cursor.skip count }

/-- How many characters stand before the next token: spaces, line breaks and comments. -/
def gapLength (inComment : Bool) : List Char → Nat
  | [] => 0
  | c :: rest =>
    if isBreak c then gapLength false rest + 1
    else if inComment then gapLength true rest + 1
    else if c == ' ' then gapLength false rest + 1
    else if c == '#' then gapLength true rest + 1
    else 0

/-- Move on to the next token. A line break outside brackets allows a key again. -/
def skipGap (s : Layout) : Layout :=
  let s := if s.cursor.index == 0 && s.cursor.char == byteOrderMark then s.skip 1 else s
  let count := gapLength false s.rest
  let broken := (s.rest.take count).any isBreak
  { s.skip count with keyAllowed := s.keyAllowed || (broken && !s.inFlow) }

/-- Whether a candidate can no longer become a key: keys are on one line and at most 1024 characters
long. -/
def isStale (s : Layout) (k : KeyCandidate) : Bool :=
  k.line != s.cursor.line || s.cursor.index - k.index > 1024

/-- Forget the candidates that can no longer become keys, unless one of them had to. -/
def dropStale (s : Layout) : Except DocumentError Layout :=
  if s.candidates.any fun (_, k) => s.isStale k && k.required then .error .malformed
  else .ok { s with candidates := s.candidates.filter fun (_, k) => !s.isStale k }

/-- The candidate at the present depth. -/
def candidate? (s : Layout) : Option KeyCandidate :=
  (s.candidates.find? fun (depth, _) => depth == s.depth).map (·.2)

/-- Forget the candidate at the present depth. -/
def forget (s : Layout) : Layout :=
  { s with candidates := s.candidates.filter fun (depth, _) => depth != s.depth }

/-- Give up the candidate at the present depth, unless it had to become a key. -/
def giveUp (s : Layout) : Except DocumentError Layout :=
  match s.candidate? with
  | some k => if k.required then .error .malformed else .ok s.forget
  | none => .ok s

/-- Remember what comes next as a candidate for a key. -/
def remember (s : Layout) : Except DocumentError Layout := do
  if s.keyAllowed then
    let s ← s.giveUp
    let k : KeyCandidate := {
      place := s.tokens.length
      required := !s.inFlow && s.indent == (s.cursor.column : Int)
      index := s.cursor.index
      line := s.cursor.line
      column := s.cursor.column }
    return { s with candidates := (s.depth, k) :: s.candidates }
  else return s

/-- Close the blocks that are indented further than a column. -/
def closeBlocks (s : Layout) (column : Int) : Layout :=
  if s.inFlow then s else close s.outer s
where
  /-- Close blocks as long as the present one is indented further. -/
  close : List Int → Layout → Layout
    | [], s => s
    | outer :: rest, s =>
      if s.indent > column then
        close rest { s.emit .blockEnd with indent := outer, outer := rest }
      else s

/-- Whether a block begins at a column, and the state inside it. -/
def openBlock (s : Layout) (column : Int) : Bool × Layout :=
  if s.indent < column then (true, { s with indent := column, outer := s.indent :: s.outer })
  else (false, s)

/-- Begin a block at the present column if it is indented further, with this start token. -/
def openBlockHere (s : Layout) (token : Token) : Layout :=
  match s.openBlock s.cursor.column with
  | (true, s) => s.emit token
  | (false, s) => s

/-- Emit a token for so many characters. -/
def take (s : Layout) (count : Nat) (token : Token) : Layout := (s.skip count).emit token

/-- The characters of a name together with the characters after them. -/
abbrev TakenName := List Char × List Char

/-- A name of letters, digits, hyphens and underscores at the start of a text. -/
def name (text : List Char) : Except DocumentError TakenName :=
  let found := text.takeWhile isNameChar
  if found.isEmpty then .error .malformed else .ok (found, text.dropWhile isNameChar)

/-- The end of the text. -/
def textEnd (s : Layout) : Except DocumentError Layout := do
  let s ← (s.closeBlocks (-1)).giveUp
  return { s.emit .textEnd with keyAllowed := false, candidates := [] }

/-- A mark of a document's start or end. -/
def documentMark (s : Layout) (token : Token) : Except DocumentError Layout := do
  let s ← (s.closeBlocks (-1)).giveUp
  return { s.take 3 token with keyAllowed := false }

/-- An opening bracket. -/
def openFlow (s : Layout) (token : Token) : Except DocumentError Layout := do
  let s ← s.remember
  return { s.take 1 token with depth := s.depth + 1, keyAllowed := true }

/-- A closing bracket; one that nothing has opened is malformed. -/
def closeFlow (s : Layout) (token : Token) : Except DocumentError Layout := do
  let s ← s.giveUp
  if s.depth = 0 then throw .malformed
  return { s.take 1 token with depth := s.depth - 1, keyAllowed := false }

/-- A comma between brackets. -/
def flowEntry (s : Layout) : Except DocumentError Layout := do
  let s ← s.giveUp
  return { s.take 1 .flowEntry with keyAllowed := true }

/-- The hyphen before an item. -/
def blockEntry (s : Layout) : Except DocumentError Layout := do
  if !s.inFlow && !s.keyAllowed then throw .malformed
  let s := if s.inFlow then s else s.openBlockHere .blockSequenceStart
  let s ← s.giveUp
  return { s.take 1 .blockEntry with keyAllowed := true }

/-- The question mark before a key. -/
def explicitKey (s : Layout) : Except DocumentError Layout := do
  if !s.inFlow && !s.keyAllowed then throw .malformed
  let s := if s.inFlow then s else s.openBlockHere .blockMappingStart
  let s ← s.giveUp
  return { s.take 1 .key with keyAllowed := !s.inFlow }

/-- The colon before a value. It turns the candidate at the present depth into a key. -/
def valueMark (s : Layout) : Except DocumentError Layout := do
  match s.candidate? with
  | some k =>
    let s := s.forget
    let (opens, s) := if s.inFlow then (false, s) else s.openBlock k.column
    let s := s.emitAt k.place (if opens then [.blockMappingStart, .key] else [.key])
    return { s.take 1 .value with keyAllowed := false }
  | none =>
    if !s.inFlow && !s.keyAllowed then throw .malformed
    let s := if s.inFlow then s else s.openBlockHere .blockMappingStart
    let s ← s.giveUp
    return { s.take 1 .value with keyAllowed := !s.inFlow }

/-- An anchor or an alias. -/
def reference (s : Layout) (token : String → Token) : Except DocumentError Layout := do
  let s ← s.remember
  let (found, rest) ← name s.rest.tail
  let next := first rest
  if !(isGap next || "?:,]\x7d%@\x60".toList.contains next) then throw .malformed
  return { (s.skipTo rest).emit (token (String.ofList found)) with keyAllowed := false }

/-- The characters of tag names. -/
def isTagChar (c : Char) : Bool := c.isAlphanum || "-;/?:@&=+$,_.!~*'()[]%".toList.contains c

/-- The bytes of the escapes with percent signs at the start of a text. -/
def percentBytes : Nat → List Char → Except DocumentError (List UInt8 × List Char)
  | 0, _ => .error .malformed
  | fuel + 1, text =>
    match text with
    | '%' :: rest =>
      match hexCode? 2 rest with
      | some (code, rest) => do
        let (more, rest) ← percentBytes fuel rest
        return (code.toUInt8 :: more, rest)
      | none => .error .malformed
    | _ => .ok ([], text)

/-- The characters of a tag name, with percent escapes read. The first argument bounds their number. -/
def tagChars : Nat → List Char → Except DocumentError TakenName
  | 0, _ => .error .malformed
  | fuel + 1, text =>
    match text with
    | [] => .ok ([], [])
    | c :: rest =>
      if !isTagChar c then .ok ([], text)
      else if c == '%' then do
        let (bytes, rest) ← percentBytes (text.length + 1) text
        match Text.decode bytes with
        | .ok front => do
          let (more, rest) ← tagChars fuel rest
          return (front ++ more, rest)
        | .error _ => throw .malformed
      else do
        let (more, rest) ← tagChars fuel rest
        return (c :: more, rest)

/-- A name of a tag, which has at least one character. -/
def tagName (text : List Char) : Except DocumentError TakenName := do
  let (found, rest) ← tagChars (text.length + 1) text
  if rest.length == text.length then throw .malformed
  return (found, rest)

/-- A handle in front of a tag name: an exclamation mark, or a word between two of them. -/
def tagHandle (text : List Char) : Except DocumentError TakenName :=
  match text with
  | '!' :: rest =>
    if first rest == ' ' then .ok (['!'], rest)
    else
      let word := rest.takeWhile isNameChar
      match rest.dropWhile isNameChar with
      | '!' :: after => .ok ('!' :: word ++ ['!'], after)
      | _ => .error .malformed
  | _ => .error .malformed

/-- The handle and the name of a tag. -/
def tagParts (text : List Char) : Except DocumentError (Option (List Char) × TakenName) := do
  let rest := text.tail
  if first rest == '<' then
    let (found, rest) ← tagName rest.tail
    if first rest != '>' then throw .malformed
    return (none, found, rest.tail)
  else if isGap (first rest) then
    return (none, ['!'], rest)
  else
    let word := rest.takeWhile (! isSpaceOrEnd ·)
    let (handle, rest) ← if word.contains '!' then tagHandle text else pure (['!'], rest)
    let (found, rest) ← tagName rest
    return (some handle, found, rest)

/-- A tag. -/
def tag (s : Layout) : Except DocumentError Layout := do
  let s ← s.remember
  let (handle, found, rest) ← tagParts s.rest
  if !isSpaceOrEnd (first rest) then throw .malformed
  return { (s.skipTo rest).emit (.tag (handle.map String.ofList) (String.ofList found)) with
    keyAllowed := false }

/-- A number of a version. -/
def versionNumber (text : List Char) : Except DocumentError (Nat × List Char) :=
  let isDigit (c : Char) : Bool := Number.isDigit c
  let digits := text.takeWhile isDigit
  if digits.isEmpty then .error .malformed
  else if Number.digitLimit < digits.length then .error (.scalar (.tooManyDigits digits.length))
  else .ok (Number.ofDigits 10 (.ofChars digits), text.dropWhile isDigit)

/-- What stands after the name of a directive. -/
def directiveContent (name : String) (text : List Char) : Except DocumentError (Directive × List Char) := do
  let text' := text.dropWhile (· == ' ')
  if name == "YAML" then
    let (major, rest) ← versionNumber text'
    if first rest != '.' then throw .malformed
    let (minor, rest) ← versionNumber rest.tail
    if !isSpaceOrEnd (first rest) then throw .malformed
    return (.version major minor, rest)
  else if name == "TAG" then
    let (handle, rest) ← tagHandle text'
    if first rest != ' ' then throw .malformed
    let (beginning, rest) ← tagName (rest.dropWhile (· == ' '))
    if !isSpaceOrEnd (first rest) then throw .malformed
    return (.tagHandle (String.ofList handle) (String.ofList beginning), rest)
  else return (.other, text.dropWhile (! isBreak ·))

/-- A directive line. -/
def directive (s : Layout) : Except DocumentError Layout := do
  let s ← (s.closeBlocks (-1)).giveUp
  let (found, rest) ← name s.rest.tail
  if !isSpaceOrEnd (first rest) then throw .malformed
  let (content, rest) ← directiveContent (String.ofList found) rest
  let rest ← emptyRest rest
  return { (s.skipTo rest).emit (.directive content) with keyAllowed := false }

/-- A scalar of lines after a sign. -/
def blockScalar (s : Layout) (foldLines : Bool) : Except DocumentError Layout := do
  let s ← s.giveUp
  let (text, rest) ← blockText foldLines s.indent s.rest.tail
  return { (s.skipTo rest).emit (.scalar text false) with keyAllowed := true }

/-- A scalar in quotes. -/
def quotedScalar (s : Layout) (double : Bool) : Except DocumentError Layout := do
  let s ← s.remember
  let (text, rest) ← quotedText double s.rest.tail
  return { (s.skipTo rest).emit (.scalar text false) with keyAllowed := false }

/-- A scalar without quotes. -/
def plainScalar (s : Layout) : Except DocumentError Layout := do
  let s ← s.remember
  let found := plainText s.inFlow (s.indent + 1) s.rest
  return { (s.skipTo found.rest).emit (.scalar found.text true) with
    keyAllowed := found.afterBreak }

/-- Whether a plain scalar can start with this text. -/
def startsPlain (s : Layout) : Bool :=
  let c := first s.rest
  let attached := !isGap (second s.rest)
  !(isGap c || "-?:,[]\x7b\x7d#&*!|>'\"%@\x60".toList.contains c) ||
    (attached && (c == '-' || (!s.inFlow && (c == '?' || c == ':'))))

/-- Read the token at the present position. -/
def token (s : Layout) : Except DocumentError Layout :=
  let c := s.cursor.char
  let atLineStart := s.cursor.column == 0
  let apart := isGap (second s.rest)
  if c == endMark then s.textEnd
  else if c == '%' && atLineStart then s.directive
  else if atLineStart && startsWithMark '-' s.rest then s.documentMark .documentStart
  else if atLineStart && startsWithMark '.' s.rest then s.documentMark .documentEnd
  else if c == '[' then s.openFlow .flowSequenceStart
  else if c == '{' then s.openFlow .flowMappingStart
  else if c == ']' then s.closeFlow .flowSequenceEnd
  else if c == '}' then s.closeFlow .flowMappingEnd
  else if c == ',' then s.flowEntry
  else if c == '-' && apart then s.blockEntry
  else if c == '?' && (s.inFlow || apart) then s.explicitKey
  else if c == ':' && (s.inFlow || apart) then s.valueMark
  else if c == '*' then s.reference .alias
  else if c == '&' then s.reference .anchor
  else if c == '!' then s.tag
  else if c == '|' && !s.inFlow then s.blockScalar false
  else if c == '>' && !s.inFlow then s.blockScalar true
  else if c == '\'' then s.quotedScalar false
  else if c == '"' then s.quotedScalar true
  else if s.startsPlain then s.plainScalar
  else .error .malformed

/-- Move on to the next token and read it. -/
def step (s : Layout) : Except DocumentError Layout := do
  let s ← s.skipGap.dropStale
  (s.closeBlocks s.cursor.column).token

/-- The tokens that do not depend on what follows: those before the first that may still become a key. -/
def settled (s : Layout) : List Token :=
  let pending := s.candidates.filter fun (_, k) => !s.isStale k
  s.tokens.reverse.take (pending.foldl (fun count (_, k) => min count k.place) s.tokens.length)

/-- Read tokens up to the end of the text; the first argument bounds their number. -/
def run : Nat → Layout → Tokens
  | 0, s => ⟨s.settled, some .malformed⟩
  | fuel + 1, s =>
    match s.step with
    | .error fault => ⟨s.settled, some fault⟩
    | .ok next =>
      if next.tokens.head? == some .textEnd then ⟨next.tokens.reverse, none⟩ else run fuel next

end Layout

/-- The tokens of a text; a text with a character that no document holds has none. -/
def tokens (text : List Char) : Tokens :=
  if text.all isAllowed then Layout.run (text.length + 1) (Layout.start text)
  else ⟨[], some .malformed⟩

end TestPlan.Yaml
