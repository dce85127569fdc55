import Phrasebook.Toml.Value

/-!
# Which keys are defined

No key may be set twice, and a table may have only one header. A table that dotted keys have made
can be added to by further dotted keys of the same table, but not from elsewhere; a table that only
the headers of its own tables have made may still get a header.

The names defined so far form a tree. An expression is checked against it and added to it.
-/

namespace Phrasebook

namespace Toml

/-- What a name is defined as. -/
inductive DefinedAs where
  /-- A value. -/
  | value
  /-- A table. -/
  | table
  /-- An array of tables. -/
  | arrayTable
  deriving DecidableEq, Repr

/-- A defined name, with the names defined below it. -/
inductive Defined where
  /-- What it is, whether it may not be added to any more, and whether an entry has made it. -/
  | node (kind : DefinedAs) (isClosed byEntry : Bool) (children : List (Text × Defined))
  deriving Repr

namespace Defined

/-- A table without names. -/
def root : Defined :=
  .node .table false false []

/-- The names below a name. -/
def children : Defined → List (Text × Defined)
  | .node _ _ _ children => children

/-- Changes the names below a name. -/
def withChildren (f : List (Text × Defined) → Option (List (Text × Defined))) :
    Defined → Option Defined
  | .node kind isClosed byEntry children =>
    (f children).map fun children => .node kind isClosed byEntry children

/-- Changes the definition of a name, which is first made if it is not there. -/
def alter (name : Text) (f : Option Defined → Option Defined) :
    List (Text × Defined) → Option (List (Text × Defined))
  | [] => (f none).map fun d => [(name, d)]
  | (other, d) :: rest =>
    if other = name then (f (some d)).map fun d => (other, d) :: rest
    else (alter name f rest).map fun rest => (other, d) :: rest

/-- Adds the key of an entry below a table. -/
def addEntry : Key → Defined → Option Defined
  | [], d => some d
  | name :: rest, d =>
    d.withChildren <| alter name fun found =>
      match found with
      | none =>
        match addEntry rest (.node .table false true []) with
        | some (.node _ isClosed byEntry children) =>
          some (.node (if rest.isEmpty then .value else .table) isClosed byEntry children)
        | none => none
      | some (.node kind isClosed byEntry children) =>
        if rest.isEmpty ∨ kind ≠ .table ∨ isClosed then none
        else addEntry rest (.node kind isClosed byEntry children)

/-- Adds the key of a header. -/
def addHeader (isArray : Bool) : Key → Defined → Option Defined
  | [], d => some d
  | [name], d =>
    d.withChildren <| alter name fun found =>
      match found with
      | none => some (.node (if isArray then .arrayTable else .table) true false [])
      | some (.node kind isClosed byEntry children) =>
        if isArray then
          if kind = .arrayTable then some (.node kind isClosed byEntry []) else none
        else if kind = .table ∧ !isClosed then some (.node kind true byEntry children)
        else none
  | name :: rest, d =>
    d.withChildren <| alter name fun found =>
      match found with
      | none => addHeader isArray rest (.node .table false false [])
      | some (.node kind isClosed byEntry children) =>
        if kind = .value then none
        else addHeader isArray rest (.node kind isClosed byEntry children)

mutual

/-- Closes every table that an entry has made below a name. -/
def close : Defined → Defined
  | .node kind isClosed byEntry children => .node kind isClosed byEntry (closeAll children)

/-- Closes tables that entries have made, and those below them. -/
def closeAll : List (Text × Defined) → List (Text × Defined)
  | [] => []
  | (name, .node kind isClosed byEntry children) :: rest =>
    (name, .node kind (isClosed || byEntry) false (closeAll children)) :: closeAll rest

end

/-- Changes the definition of a key that is there. -/
def modifyAt (f : Defined → Option Defined) : Key → Defined → Option Defined
  | [], d => f d
  | name :: rest, d =>
    d.withChildren <| alter name fun found =>
      match found with
      | some d => modifyAt f rest d
      | none => none

/-- Whether a key was already defined. -/
def contains : Key → Defined → Bool
  | [], _ => true
  | name :: rest, d =>
    match d.children.lookup name with
    | some d => contains rest d
    | none => false

end Defined

mutual

/-- Whether the tables within a value set no key twice. -/
def Value.keysDiffer : Value → Bool
  | .array items => keysDifferAll items
  | .table entries => keysDifferFrom .root entries
  | _ => true

/-- Whether the tables within values set no key twice. -/
def keysDifferAll : List Value → Bool
  | [] => true
  | value :: rest => value.keysDiffer && keysDifferAll rest

/-- Whether entries set no key that is defined, or twice. -/
def keysDifferFrom (d : Defined) : List (Key × Value) → Bool
  | [] => true
  | (key, value) :: rest =>
    match d.addEntry key with
    | some d => value.keysDiffer && keysDifferFrom d rest
    | none => false

end

/-- The keys defined so far, and the table that entries belong to. -/
structure Definitions where
  /-- The keys. -/
  root : Defined := .root
  /-- The table that entries belong to. -/
  current : Key := []

namespace Definitions

/-- Adds an entry; fails if its key may not be set. -/
def addEntry (s : Definitions) (key : Key) (value : Value) : Option Definitions :=
  match s.root.modifyAt (Defined.addEntry key) s.current with
  | some root => if value.keysDiffer then some { s with root := root } else none
  | none => none

/-- Adds a header; fails if there may not be one. -/
def addHeader (s : Definitions) (isArray : Bool) (key : Key) : Option Definitions :=
  match s.root.modifyAt (fun d => some d.close) s.current with
  | some root => (root.addHeader isArray key).map fun root => ⟨root, key⟩
  | none => none

end Definitions

end Toml

end Phrasebook
