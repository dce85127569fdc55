import Phrasebook.Text

/-!
# Nodes of YAML

A document is a tree of scalars, sequences and mappings. A node that was given a name can be
referred to again; the reference holds the node it stands for, except inside that node itself, where
it closes a loop.
-/

namespace Phrasebook

namespace Yaml

/-- A node. The tags of sequences and mappings say nothing about how they are read, so only those of
scalars are kept. -/
inductive Node where
  /-- A scalar, with its tag (empty when it has none) and whether it is plain. -/
  | scalar (tag : Text) (isPlain : Bool) (text : Text)
  /-- A sequence of nodes. -/
  | sequence (items : List Node)
  /-- A mapping from keys to values, in order. -/
  | mapping (entries : List (Node × Node))
  /-- A reference to a node by its name. -/
  | alias (name : Text) (target : Node)
  /-- A reference to a node that it is itself a part of. -/
  | loop (name : Text)
  deriving Repr

namespace Node

/-- The node that stands where nothing is written. -/
def empty : Node :=
  .scalar [] true []

/-- The node that a reference stands for. -/
def target : Node → Node
  | .alias _ node => node
  | node => node

/-- Whether a node is a mapping or a reference to a complete one. -/
def isMapping (node : Node) : Bool :=
  match node.target with
  | .mapping _ => true
  | _ => false

/-- Whether two keys of a mapping are written alike: they are of one kind, and scalars have the same
text and references the same name. -/
def sameKey : Node → Node → Bool
  | .scalar _ _ s, .scalar _ _ t => s == t
  | .sequence _, .sequence _ => true
  | .mapping _, .mapping _ => true
  | .alias s _, .alias t _ => s == t
  | .alias s _, .loop t => s == t
  | .loop s, .alias t _ => s == t
  | .loop s, .loop t => s == t
  | _, _ => false

end Node

end Yaml

end Phrasebook
