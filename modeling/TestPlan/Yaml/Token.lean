import TestPlan.Yaml.Error

/-!
# Tokens of a document

The units of document markup. Indentation shows in tokens of its own: a block collection has a start
token where its indentation begins and an end token where it ends. A key token stands before every key of
a mapping, also before one that only the colon after it reveals to be a key.
-/

namespace TestPlan.Yaml

/-- What a directive line declares. -/
inductive Directive
  | version (major minor : Nat)
  /-- a short form for the beginnings of tag names -/
  | tagHandle (handle beginning : String)
  | other
  deriving DecidableEq

/-- A unit of markup. -/
inductive Token
  | directive (content : Directive)
  | documentStart
  | documentEnd
  | textEnd
  | blockSequenceStart
  | blockMappingStart
  | blockEnd
  | flowSequenceStart
  | flowSequenceEnd
  | flowMappingStart
  | flowMappingEnd
  | blockEntry
  | flowEntry
  | key
  | value
  | alias (name : String)
  | anchor (name : String)
  /-- a tag with the handle in front of it; without one the name is complete -/
  | tag (handle : Option String) (name : String)
  | scalar (text : Text) (isPlain : Bool)
  deriving DecidableEq

/-- The tokens of a text as far as they can be told, and what is wrong with the text after them; nothing
if they reach its end. -/
structure Tokens where
  front : List Token
  fault : Option DocumentError

end TestPlan.Yaml
