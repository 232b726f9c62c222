/-!
# Tokens of a configuration text

A text is first cut into tokens. Besides the signs that are written, there are tokens for what the
indentation says: where a block begins and where it ends, and which scalar is a key.
-/

namespace Switchboard.Yaml

/-- What a configuration text is made of. -/
inductive Token where
  /-- The begin of a document. -/
  | documentStart
  /-- The end of a document. -/
  | documentEnd
  /-- Items on lines of their own begin here. -/
  | blockSequenceStart
  /-- Entries on lines of their own begin here. -/
  | blockMappingStart
  /-- The block that was begun last ends. -/
  | blockEnd
  | flowSequenceStart
  | flowSequenceEnd
  | flowMappingStart
  | flowMappingEnd
  /-- A hyphen before an item. -/
  | blockEntry
  /-- A comma between items or entries. -/
  | flowEntry
  /-- A key follows. -/
  | key
  /-- The value for a key follows. -/
  | value
  /-- What stands under a name stands here as well. -/
  | reference (name : String)
  /-- The name of what follows. -/
  | anchor (name : String)
  /-- The tag of what follows. -/
  | tag (name : String)
  /-- A scalar; it is plain if it has neither quotes nor a sign before it. -/
  | scalar ( isPlain : Bool) (text : String)
deriving DecidableEq, Repr

end Switchboard.Yaml
