import EntityStore.Yaml.Cursor
import EntityStore.Yaml.Tag

/-!
# Tokens of a YAML stream

The tokens that the structure of a document is made of: the scalars and the marks of flow
collections as they are written, and marks for the start and the end of block collections, which
are only written as indentation.
-/

namespace EntityStore.Yaml

/-- How a scalar is written. -/
inductive Style where
  /-- Without quotes. -/
  | plain
  /-- In single quotes. -/
  | singleQuoted
  /-- In double quotes. -/
  | doubleQuoted
  /-- As a block whose lines are kept. -/
  | literal
  /-- As a block whose lines are joined. -/
  | folded
  deriving DecidableEq

/-- A tag as it is written: the handle, which abbreviates a start, and what follows it. -/
structure TagText where
  /-- The handle, empty for a tag in full. -/
  handle : String
  /-- The octets that follow the handle. -/
  suffix : List UInt8
  deriving DecidableEq

/-- A token of a stream. -/
inductive Token where
  /-- The end of the stream. -/
  | streamEnd
  /-- A declaration of the version. -/
  | version (major minor : Nat)
  /-- A declaration of what a tag handle abbreviates. -/
  | tagPrefix (handle : String) (start : List UInt8)
  /-- The start of a document. -/
  | documentStart
  /-- The end of a document. -/
  | documentEnd
  /-- The start of a block sequence. -/
  | blockSequenceStart
  /-- The start of a block mapping. -/
  | blockMappingStart
  /-- The end of a block sequence or mapping. -/
  | blockEnd
  /-- An opening bracket. -/
  | flowSequenceStart
  /-- A closing bracket. -/
  | flowSequenceEnd
  /-- An opening brace. -/
  | flowMappingStart
  /-- A closing brace. -/
  | flowMappingEnd
  /-- The hyphen before an entry of a block sequence. -/
  | blockEntry
  /-- The comma between the entries of a flow collection. -/
  | flowEntry
  /-- The start of a key. -/
  | key
  /-- The start of a value. -/
  | value
  /-- A reference to a node with an anchor. -/
  | reference (name : String)
  /-- An anchor of the node that follows. -/
  | anchor (name : String)
  /-- A tag of the node that follows. -/
  | tag (text : TagText)
  /-- A scalar. -/
  | scalar (text : String) (style : Style)
  deriving DecidableEq

end EntityStore.Yaml
