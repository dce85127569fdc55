import Phrasebook.Record
import Phrasebook.Yaml.Meaning
import Phrasebook.Yaml.Node.Reader

/-!
# Reading the parts of a record from nodes

A node is read as a text, an integer, a truth value, a list or a record. Each reader fails on a node
of the wrong kind, and finds nothing in a null.

A record is read from a mapping. Keys of no field are passed over with their values. Fields that the
mapping does not set itself may come from the mappings that its merge key names: those set by the
mapping come first, then those of the merged mappings in order.
-/

namespace Phrasebook

namespace Yaml

namespace Node

/-- The outcome of reading a node: `none` is a failure, and `some none` stands for a null. -/
abbrev Reading (α : Type) := Option (Option α)

/-- The meaning of a node that is a scalar. -/
def scalar? (node : Node) : Option Meaning :=
  match node.target with
  | .scalar tag isPlain t => meaning? tag isPlain t
  | _ => none

/-- A scalar of any kind as a text: the way it is written, except that a binary text is decoded. -/
def text? (node : Node) : Reading Text :=
  match node.target with
  | .scalar tag isPlain t =>
    match meaning? tag isPlain t with
    | none => none
    | some .null => some none
    | some (.text t) => some (some t)
    | some _ => some (some t)
  | _ => none

/-- The integer part of a number, if it is at most `2 ^ 63`; what does not fit 64 bits then is the
least integer. -/
def truncate? (x : Binary64) : Option Int :=
  let size := x.mantissa * Nat.pow 2 x.exponent.toNat / Nat.pow 2 (-x.exponent).toNat
  let n := Integer.withSign x.negative size
  if n > Int.pow 2 63 then none
  else some (if Integer.fits n then n else -Int.pow 2 63)

/-- An integer, or a number whose integer part is taken. -/
def integer? (node : Node) : Reading Int :=
  match node.scalar? with
  | some .null => some none
  | some (.integer n) => if Integer.fits n then some (some n) else none
  | some (.number x) => (truncate? x).map some
  | some (.infinity true) => some (some (-Int.pow 2 63))
  | _ => none

/-- A truth value, which some more words stand for. -/
def boolean? (node : Node) : Reading Bool :=
  match node.scalar? with
  | some .null => some none
  | some (.boolean b) => some (some b)
  | some (.text t) =>
    let among (words : List String) : Bool := (words.map Text.ofString).contains t
    if among ["y", "Y", "yes", "Yes", "YES", "on", "On", "ON"] then some (some true)
    else if among ["n", "N", "no", "No", "NO", "off", "Off", "OFF"] then some (some false)
    else none
  | _ => none

/-- A list, without the items that are null. -/
def list? {α : Type} (read : Node → Reading α) (node : Node) : Reading (List α) :=
  match node.target with
  | .sequence items => (items.mapM (m := Option) read).map fun found => some (found.filterMap id)
  | .scalar tag isPlain t => if meaning? tag isPlain t = some .null then some none else none
  | _ => none

/-! ### Records -/

/-- The fields found in a mapping, and the names that are taken. -/
structure Found where
  /-- The fields with their values. -/
  fields : List (Text × Node) := []
  /-- The names that are taken. -/
  taken : List Text := []

/-- Whether a key asks for other mappings to be merged. -/
def isMergeKey : Node → Bool
  | .scalar tag isPlain t =>
    t == Text.ofString "<<" && ((tag.isEmpty && isPlain) || shortTag tag == Text.ofString "!!merge")
  | _ => false

/-- Whether a node can be merged: a mapping, or a sequence of mappings. -/
def canMerge : Node → Bool
  | .sequence items => items.all isMapping
  | node => node.isMapping

/-- Whether no key of a mapping is written twice. -/
def keysDiffer : List (Node × Node) → Bool
  | [] => true
  | (key, _) :: rest => rest.all (fun entry => !sameKey key entry.1) && keysDiffer rest

/-- Adds the entries of a mapping that set a field. When a name is taken, the entry is passed over,
or refused if names may be set only once. -/
def addEntries (names : List Text) (once : Bool) : Found → List (Node × Node) → Option Found
  | found, [] => some found
  | found, (key, value) :: rest =>
    if isMergeKey key then addEntries names once found rest
    else
      match key.text? with
      | none => none
      | some none => addEntries names once found rest
      | some (some name) =>
        if !names.contains name then addEntries names once found rest
        else if found.taken.contains name then
          if once then none else addEntries names once found rest
        else
          addEntries names once ⟨found.fields ++ [(name, value)], name :: found.taken⟩ rest

mutual

/-- Adds the fields of a mapping, and then of the mappings that it merges. -/
def addMapping (names : List Text) (once : Bool) (found : Found) : Node → Option Found
  | .mapping entries =>
    if keysDiffer entries then
      match addEntries names once found entries with
      | some found => addMerged names found entries
      | none => none
    else none
  | .alias _ node => addMapping names once found node
  | .sequence items => addAll names found items
  | .scalar .. | .loop _ => none

/-- Adds the fields of mappings one after the other. -/
def addAll (names : List Text) (found : Found) : List Node → Option Found
  | [] => some found
  | node :: rest =>
    match addMapping names false found node with
    | some found => addAll names found rest
    | none => none

/-- Adds the fields of what the merge key of a mapping names. -/
def addMerged (names : List Text) (found : Found) : List (Node × Node) → Option Found
  | [] => some found
  | (key, value) :: rest =>
    if isMergeKey key then
      if canMerge value then addMapping names false found value else none
    else addMerged names found rest

end

/-- The fields of a record with their values. -/
def fieldsOf? (names : List Text) (node : Node) : Reading (List (Text × Node)) :=
  match node.target with
  | .mapping entries => (addMapping names true {} (.mapping entries)).map fun found => found.fields
  | .scalar tag isPlain t => if meaning? tag isPlain t = some .null then some none else none
  | _ => none

/-! ### Shapes -/

mutual

/-- The value of a shape that a node holds. -/
def item? : Shape → Node → Reading Item
  | .text, node => node.text?.map (·.map .text)
  | .integer, node => node.integer?.map (·.map .integer)
  | .boolean, node => node.boolean?.map (·.map .boolean)
  | .list shape, node => (node.list? (item? shape)).map (·.map .list)
  | .record shapes, node =>
    match node.fieldsOf? (shapes.map Prod.fst) with
    | none => none
    | some none => some none
    | some (some fields) => (fields? shapes fields).map fun r => some (.record r)

/-- The fields of a record, from those that a mapping sets. A field set to null is left out. -/
def fields? : List (Text × Shape) → List (Text × Node) → Option Record
  | [], _ => some []
  | (name, shape) :: rest, nodes =>
    match nodes.lookup name with
    | none => fields? rest nodes
    | some node =>
      match item? shape node, fields? rest nodes with
      | some (some item), some r => some ((name, item) :: r)
      | some none, some r => some r
      | _, _ => none

end

end Node

/-- The record that the first document of a stream holds; a stream without one, and a null, hold an
empty record. -/
def record? (shapes : List (Text × Shape)) (t : Text) : Option Record :=
  match Node.ofText? t with
  | none => none
  | some none => some []
  | some (some root) =>
    match root.item? (.record shapes) with
    | some (some (.record r)) => some r
    | some none => some []
    | _ => none

end Yaml

end Phrasebook
