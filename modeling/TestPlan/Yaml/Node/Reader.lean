import TestPlan.Yaml.Node
import TestPlan.Yaml.Token

/-!
# From tokens to nodes

The nodes that the tokens of a text describe: scalars, sequences and mappings, each with an optional
anchor and tag, and aliases, which stand for the node with an anchor. A text holds at most one document;
`NodeTable.ofTokens?` gives its nodes with the number of its root, or nothing for a text without one.

Nodes are read from left to right, and no token is looked at before it is needed. So of two things that
are wrong with a text, one in its tokens and one in what they say, the earlier one is found. The readers
below go down one level for every argument of the bound on their depth, and take what they understand
from the front of the tokens.
-/

namespace TestPlan.Yaml

/-- The tokens that are left, what is wrong with the text after them, and the nodes so far. -/
structure Reader where
  tokens : List Token
  fault : Option DocumentError
  table : NodeTable

/-- Reading from the front of the tokens. -/
abbrev Reading := StateT Reader (Except DocumentError)

/-- Anchor and tag in front of a node. -/
structure Properties where
  anchor : Option String
  tag : Option String

/-- Short forms for the beginnings of tag names. -/
abbrev Handles := List (String × String)

namespace Reading

/-- The next token. -/
def peek : Reading Token := do
  let reader ← get
  match reader.tokens with
  | token :: _ => return token
  | [] => throw (reader.fault.getD .malformed)

/-- Take the next token. -/
def advance : Reading Unit := modify fun reader => { reader with tokens := reader.tokens.tail }

/-- Take the next token if it is this one, and say whether it was. -/
def takes (token : Token) : Reading Bool := do
  if (← peek) == token then
    advance
    return true
  else return false

/-- Add a node under its anchor. -/
def add (anchor : Option String) (node : Node) : Reading Nat := do
  let reader ← get
  let (i, table) ← reader.table.add anchor node
  set { reader with table }
  return i

/-- Give a node its parts. -/
def fill (i : Nat) (content : Content) : Reading Unit :=
  modify fun reader => { reader with table := reader.table.fill i content }

/-- The short forms that every document has. -/
def standardHandles : Handles := [("!", "!"), ("!!", Tag.standard)]

/-- The full name of a written tag. -/
def fullTag (handles : Handles) (handle : Option String) (name : String) : Reading String :=
  match handle with
  | none => return name
  | some handle =>
    match handles.find? fun (h, _) => h == handle with
    | some (_, beginning) => return beginning ++ name
    | none => throw .malformed

/-- Anchor and tag in front of a node, in either order. -/
def properties (handles : Handles) : Reading Properties := do
  match ← peek with
  | .anchor name =>
    advance
    match ← peek with
    | .tag handle tag =>
      advance
      return ⟨some name, some (← fullTag handles handle tag)⟩
    | _ => return ⟨some name, none⟩
  | .tag handle tag =>
    advance
    match ← peek with
    | .anchor name =>
      advance
      return ⟨some name, some (← fullTag handles handle tag)⟩
    | _ => return ⟨none, some (← fullTag handles handle tag)⟩
  | _ => return ⟨none, none⟩

/-- The tag of a collection: what is written, or the usual one. -/
def collectionTag (usual : Tag) (written : Option String) : Tag :=
  match written with
  | none => usual
  | some name => if name == "!" then usual else .ofName name

/-- The tag of a scalar: what is written, or what follows from its form if it is plain or says so. -/
def scalarTag (written : Option String) (text : Text) (isPlain : Bool) : Tag :=
  match written with
  | some name => if name == "!" then Scalar.plainTag text else .ofName name
  | none => if isPlain then Scalar.plainTag text else .text

/-- Add a scalar. -/
def scalar (props : Properties) (text : Text) (isPlain : Bool) : Reading Nat :=
  add props.anchor ⟨scalarTag props.tag text isPlain, .scalar text⟩

/-- The scalar that stands where nothing is written. -/
def nothing : Reading Nat := scalar ⟨none, none⟩ "" true

/-- A node that is nothing but its anchor or tag. -/
def bare (props : Properties) : Reading Nat :=
  if props.anchor.isSome || props.tag.isSome then scalar props "" true else throw .malformed

/-- Add a sequence with the items that are read next. -/
def sequence (props : Properties) (items : Reading (List Nat)) : Reading Nat := do
  let i ← add props.anchor ⟨collectionTag .sequence props.tag, .sequence []⟩
  fill i (.sequence (← items))
  return i

/-- Add a mapping with the entries that are read next. -/
def mapping (props : Properties) (entries : Reading (List (Nat × Nat))) : Reading Nat := do
  let i ← add props.anchor ⟨collectionTag .mapping props.tag, .mapping []⟩
  fill i (.mapping (← entries))
  return i

/-- What surrounds a node: brackets, a block, or a block where the items of a sequence need no
indentation of their own. -/
inductive Surrounding
  | flow
  | block
  | blockOrItems
  deriving DecidableEq

/-- Whether a token ends the place of an item in a block sequence. -/
def endsBlockItem : Token → Bool
  | .blockEntry | .blockEnd => true
  | _ => false

/-- Whether a token ends the place of a key or value in a block mapping. -/
def endsBlockPart : Token → Bool
  | .key | .value | .blockEnd => true
  | _ => false

/-- Whether a token ends the place of an item of a sequence without indentation. -/
def endsLooseItem : Token → Bool
  | .blockEntry => true
  | token => endsBlockPart token

/-- Whether a token ends the place of a value between brackets. -/
def endsFlowPart (closing token : Token) : Bool := token == .flowEntry || token == closing

/-- Whether a token ends the place of a key between brackets. -/
def endsFlowKey (closing token : Token) : Bool := token == .value || endsFlowPart closing token

/-- Take the comma before every part between brackets except the first. -/
def separator (atFirst : Bool) : Reading Unit := do
  if atFirst then return
  else if ← takes .flowEntry then return
  else throw .malformed

mutual

/-- The node at the front of the tokens. -/
def node (handles : Handles) (surrounding : Surrounding) : Nat → Reading Nat
  | 0 => throw .malformed
  | depth + 1 => do
    if let .alias name ← peek then
      advance
      match (← get).table.find? name with
      | some i => return i
      | none => throw .malformed
    else
      let props ← properties handles
      match ← peek with
      | .scalar text isPlain =>
        advance
        scalar props text isPlain
      | .flowSequenceStart => sequence props do
        advance
        flowItems handles true depth
      | .flowMappingStart => mapping props do
        advance
        flowEntries handles true depth
      | .blockEntry =>
        if surrounding == .blockOrItems then sequence props (looseItems handles depth) else bare props
      | .blockSequenceStart =>
        if surrounding == .flow then bare props
        else sequence props do
          advance
          blockItems handles depth
      | .blockMappingStart =>
        if surrounding == .flow then bare props
        else mapping props do
          advance
          blockEntries handles depth
      | _ => bare props

/-- A node, or nothing where a token of this class follows. -/
def nodeUnless (handles : Handles) (surrounding : Surrounding) (ends : Token → Bool) : Nat → Reading Nat
  | 0 => throw .malformed
  | depth + 1 => do if ends (← peek) then nothing else node handles surrounding depth

/-- The items of a block sequence and its end. -/
def blockItems (handles : Handles) : Nat → Reading (List Nat)
  | 0 => throw .malformed
  | depth + 1 => do
    if ← takes .blockEntry then
      let item ← nodeUnless handles .block endsBlockItem depth
      return item :: (← blockItems handles depth)
    else if ← takes .blockEnd then return []
    else throw .malformed

/-- The items of a sequence that is not indented; it ends where no item follows. -/
def looseItems (handles : Handles) : Nat → Reading (List Nat)
  | 0 => throw .malformed
  | depth + 1 => do
    if ← takes .blockEntry then
      let item ← nodeUnless handles .block endsLooseItem depth
      return item :: (← looseItems handles depth)
    else return []

/-- The value of a key, nothing where no value mark follows. -/
def valueAfter (handles : Handles) (surrounding : Surrounding) (ends : Token → Bool) : Nat → Reading Nat
  | 0 => throw .malformed
  | depth + 1 => do
    if ← takes .value then nodeUnless handles surrounding ends depth else nothing

/-- The entries of a block mapping and its end. -/
def blockEntries (handles : Handles) : Nat → Reading (List (Nat × Nat))
  | 0 => throw .malformed
  | depth + 1 => do
    if ← takes .key then
      let key ← nodeUnless handles .blockOrItems endsBlockPart depth
      let value ← valueAfter handles .blockOrItems endsBlockPart depth
      return (key, value) :: (← blockEntries handles depth)
    else if ← takes .blockEnd then return []
    else throw .malformed

/-- The items between square brackets. An item with a key token is a mapping of one entry. -/
def flowItems (handles : Handles) (atFirst : Bool) : Nat → Reading (List Nat)
  | 0 => throw .malformed
  | depth + 1 => do
    if ← takes .flowSequenceEnd then return []
    separator atFirst
    if ← takes .flowSequenceEnd then return []
    else if (← peek) == .key then
      let item ← mapping ⟨none, none⟩ do
        advance
        let key ← nodeUnless handles .flow (endsFlowKey .flowSequenceEnd) depth
        let value ← valueAfter handles .flow (endsFlowPart .flowSequenceEnd) depth
        return [(key, value)]
      return item :: (← flowItems handles false depth)
    else
      let item ← node handles .flow depth
      return item :: (← flowItems handles false depth)

/-- The entries between curly brackets. An entry without a key token is a key without a value. -/
def flowEntries (handles : Handles) (atFirst : Bool) : Nat → Reading (List (Nat × Nat))
  | 0 => throw .malformed
  | depth + 1 => do
    if ← takes .flowMappingEnd then return []
    separator atFirst
    if ← takes .flowMappingEnd then return []
    else if ← takes .key then
      let key ← nodeUnless handles .flow (endsFlowKey .flowMappingEnd) depth
      let value ← valueAfter handles .flow (endsFlowPart .flowMappingEnd) depth
      return (key, value) :: (← flowEntries handles false depth)
    else
      let key ← node handles .flow depth
      let value ← nothing
      return (key, value) :: (← flowEntries handles false depth)

end

/-- The short forms that the directives before a document declare. A version may be declared once and has
to be 1, and no short form may be declared twice. The first argument bounds the number of directives. -/
def directives : Nat → (version : Bool) → Handles → Reading Handles
  | 0, _, _ => throw .malformed
  | fuel + 1, version, handles => do
    match ← peek with
    | .directive content =>
      advance
      match content with
      | .version major _ =>
        if version || major != 1 then throw .malformed else directives fuel true handles
      | .tagHandle handle beginning =>
        if handles.any fun (h, _) => h == handle then throw .malformed
        else directives fuel version (handles ++ [(handle, beginning)])
      | .other => directives fuel version handles
    | _ => return handles ++ standardHandles

/-- Take the marks of a document's end; the argument bounds their number. -/
def skipEnds : Nat → Reading Unit
  | 0 => return
  | fuel + 1 => do if ← takes .documentEnd then skipEnds fuel

/-- Whether a token says that a document with a start mark is empty. -/
def endsDocument : Token → Bool
  | .directive _ | .documentStart | .documentEnd | .textEnd => true
  | _ => false

/-- Whether a document may begin with this token without a start mark. -/
def beginsDocument : Token → Bool
  | .directive _ | .documentStart | .textEnd => false
  | _ => true

/-- The root of the only document, if there is one. Nothing but marks of its end may follow it: what
begins another document is read only as far as its start mark. The argument bounds the depth. -/
def document? (bound : Nat) : Reading (Option Nat) := do
  let token ← peek
  if token == .textEnd then return none
  let root ←
    if beginsDocument token then node standardHandles .block bound
    else
      let handles ← directives bound false []
      if ← takes .documentStart then nodeUnless handles .block endsDocument bound
      else throw .malformed
  skipEnds bound
  if (← peek) == .textEnd then return some root
  let _ ← directives bound false []
  let _ ← peek
  throw .malformed

end Reading

/-- The root of the document that tokens describe, and all its nodes; nothing if there is no document. -/
def NodeTable.ofTokens? (tokens : Tokens) : Except DocumentError (Option (Nat × NodeTable)) := do
  let bound := 4 * tokens.front.length + 4
  let (root, reader) ← (Reading.document? bound).run ⟨tokens.front, tokens.fault, .empty⟩
  return root.map fun i => (i, reader.table)

end TestPlan.Yaml
