import Phrasebook.Text

/-!
# Tokens of YAML

The signs and scalars of a stream in their order. Where the layout alone begins or ends a mapping or
a sequence, a token of its own says so, and a token stands before every key.
-/

namespace Phrasebook

namespace Yaml

/-- A token. -/
inductive Token where
  /-- The end of the stream. -/
  | streamEnd
  /-- The version of YAML a document is written in. -/
  | version (major minor : Nat)
  /-- What a handle of tags stands for. -/
  | tagHandle (handle start : Text)
  /-- The start of a document. -/
  | documentStart
  /-- The end of a document. -/
  | documentEnd
  /-- The start of a sequence by layout. -/
  | blockSequenceStart
  /-- The start of a mapping by layout. -/
  | blockMappingStart
  /-- The end of a sequence or mapping by layout. -/
  | blockEnd
  /-- An opening square bracket. -/
  | flowSequenceStart
  /-- A closing square bracket. -/
  | flowSequenceEnd
  /-- An opening brace. -/
  | flowMappingStart
  /-- A closing brace. -/
  | flowMappingEnd
  /-- The dash of an item. -/
  | blockEntry
  /-- A comma. -/
  | flowEntry
  /-- The start of a key. -/
  | key
  /-- The colon before a value. -/
  | value
  /-- A reference to an anchor. -/
  | alias (name : Text)
  /-- The name of a node. -/
  | anchor (name : Text)
  /-- The tag of a node, as a handle and what follows it. -/
  | tag (handle suffix : Text)
  /-- A scalar, and whether it is plain. -/
  | scalar (text : Text) (isPlain : Bool)
  deriving DecidableEq, Repr

/-- The tokens of a stream up to its end, or as far as they can be read. -/
structure Tokens where
  /-- The tokens in order. -/
  list : List Token
  /-- Whether the stream could not be read to its end. -/
  failed : Bool

namespace Tokens

/-- The tokens that may be used. A reader looks two tokens ahead, so the last two before an error
are out of reach. -/
def usable (ts : Tokens) : List Token :=
  if ts.failed then ts.list.take (ts.list.length - 2) else ts.list

end Tokens

end Yaml

end Phrasebook
