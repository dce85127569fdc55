import Phrasebook.Yaml.Node
import Phrasebook.Yaml.Token.Lexer

/-!
# Reading nodes from tokens

The first document of a stream is read by descent over its tokens. The reader keeps the handles of
tags that are declared and the nodes that have names. A name is taken as soon as its node begins, and
stands for a loop until the node is complete.

Every call of a reader that leads to another one has passed a token or ends soon after, so a small
multiple of the number of tokens bounds the depth of the descent.
-/

namespace Phrasebook

namespace Yaml

/-- The state of reading nodes. -/
structure Reader where
  /-- The tokens left. -/
  tokens : List Token
  /-- What the handles of tags stand for. -/
  handles : List (Text × Text) := []
  /-- The names given so far, each with its node once that is complete. -/
  anchors : Array (Text × Option Node) := #[]

/-- Reading with a state; running out of tokens is a failure. -/
abbrev Read := StateT Reader Option

namespace Reader

/-- The next token. -/
def peek : Read Token := do
  match (← get).tokens with
  | t :: _ => pure t
  | [] => failure

/-- Passes a token. -/
def skip : Read Unit :=
  modify fun r => { r with tokens := r.tokens.drop 1 }

/-! ### Names and tags -/

/-- Takes a name for the node that begins. The number returned completes it. -/
def openAnchor (name : Option Text) : Read (Option Nat) := do
  match name with
  | none => pure none
  | some name =>
    let size := (← get).anchors.size
    modify fun r => { r with anchors := r.anchors.push (name, none) }
    pure (some size)

/-- Completes a named node. -/
def closeAnchor (number : Option Nat) (node : Node) : Read Node := do
  match number with
  | none => pure node
  | some number =>
    modify fun r => { r with anchors := r.anchors.modify number fun (name, _) => (name, some node) }
    pure node

/-- The node that a name was last given to. -/
def anchored (name : Text) : Read Node := do
  match (← get).anchors.toList.reverse.lookup name with
  | none => failure
  | some none => pure (.loop name)
  | some (some node) => pure (.alias name node)

/-- The handles of tags that need no declaration. -/
def usualHandles : List (Text × Text) :=
  [(Text.ofString "!", Text.ofString "!"), (Text.ofString "!!", Text.ofString "tag:yaml.org,2002:")]

/-- The tag that a handle and what follows it stand for. -/
def tagOf (handle suffix : Text) : Read Text := do
  if handle.isEmpty then pure suffix
  else
    match ((← get).handles ++ usualHandles).lookup handle with
    | some start => pure (start ++ suffix)
    | none => failure

/-- The name and the tag before a node, in either order. -/
def properties : Read (Option Text × Text) := do
  match ← peek with
  | .anchor name =>
    skip
    match ← peek with
    | .tag handle suffix =>
      skip
      pure (some name, ← tagOf handle suffix)
    | _ => pure (some name, [])
  | .tag handle suffix =>
    skip
    match ← peek with
    | .anchor name =>
      skip
      pure (some name, ← tagOf handle suffix)
    | _ => pure (none, ← tagOf handle suffix)
  | _ => pure (none, [])

/-! ### Nodes -/

mutual

/-- Reads a node. `inBlock` allows blocks; `indentless` allows a sequence that is not indented. -/
def node : Nat → (inBlock indentless : Bool) → Read Node
  | 0, _, _ => failure
  | steps + 1, inBlock, indentless => do
    match ← peek with
    | .alias name =>
      skip
      anchored name
    | _ =>
      let (name, tag) ← properties
      let number ← openAnchor name
      match ← peek with
      | .scalar text isPlain =>
        skip
        closeAnchor number (.scalar (if tag = Text.ofString "!" then [] else tag) isPlain text)
      | .flowSequenceStart =>
        skip
        closeAnchor number (.sequence (← flowItems steps true))
      | .flowMappingStart =>
        skip
        closeAnchor number (.mapping (← flowEntries steps true))
      | t =>
        if t = .blockEntry ∧ indentless then
          closeAnchor number (.sequence (← plainItems steps))
        else if t = .blockSequenceStart ∧ inBlock then
          skip
          closeAnchor number (.sequence (← blockItems steps))
        else if t = .blockMappingStart ∧ inBlock then
          skip
          closeAnchor number (.mapping (← blockEntries steps))
        else if name.isSome ∨ ¬ tag.isEmpty then closeAnchor number (.scalar tag true [])
        else failure

/-- Reads a node, unless one of some tokens shows that nothing is written. -/
def nodeUnless : Nat → List Token → (inBlock indentless : Bool) → Read Node
  | 0, _, _, _ => failure
  | steps + 1, ends, inBlock, indentless => do
    if ends.contains (← peek) then pure .empty else node steps inBlock indentless

/-- Reads the items of an indented sequence. -/
def blockItems : Nat → Read (List Node)
  | 0 => failure
  | steps + 1 => do
    match ← peek with
    | .blockEntry =>
      skip
      let item ← nodeUnless steps [.blockEntry, .blockEnd] true false
      pure (item :: (← blockItems steps))
    | .blockEnd =>
      skip
      pure []
    | _ => failure

/-- Reads the items of a sequence that is not indented. -/
def plainItems : Nat → Read (List Node)
  | 0 => failure
  | steps + 1 => do
    match ← peek with
    | .blockEntry =>
      skip
      let item ← nodeUnless steps [.blockEntry, .key, .value, .blockEnd] true false
      pure (item :: (← plainItems steps))
    | _ => pure []

/-- Reads the entries of a mapping given by layout. -/
def blockEntries : Nat → Read (List (Node × Node))
  | 0 => failure
  | steps + 1 => do
    match ← peek with
    | .key =>
      skip
      let key ← nodeUnless steps [.key, .value, .blockEnd] true true
      let value ← valueUnless steps [.key, .value, .blockEnd] true
      pure ((key, value) :: (← blockEntries steps))
    | .blockEnd =>
      skip
      pure []
    | _ => failure

/-- Reads a value after its sign; without the sign there is nothing. -/
def valueUnless : Nat → List Token → (inBlock : Bool) → Read Node
  | 0, _, _ => failure
  | steps + 1, ends, inBlock => do
    match ← peek with
    | .value =>
      skip
      nodeUnless steps ends inBlock inBlock
    | _ => pure .empty

/-- Reads the items between square brackets. An item may be an entry, which is a mapping by
itself. -/
def flowItems : Nat → (isFirst : Bool) → Read (List Node)
  | 0, _ => failure
  | steps + 1, isFirst => do
    if (← peek) = .flowSequenceEnd then
      skip
      pure []
    else
      if !isFirst then
        if (← peek) = .flowEntry then skip else failure
      match ← peek with
      | .flowSequenceEnd =>
        skip
        pure []
      | .key =>
        skip
        let ends := [.value, .flowEntry, .flowSequenceEnd]
        let missing := ends.contains (← peek)
        let key ← nodeUnless steps ends false false
        -- A key that is missing takes the token in its place with it.
        if missing then skip
        let value ← valueUnless steps [.flowEntry, .flowSequenceEnd] false
        pure (.mapping [(key, value)] :: (← flowItems steps false))
      | _ =>
        let item ← node steps false false
        pure (item :: (← flowItems steps false))

/-- Reads the entries between braces. -/
def flowEntries : Nat → (isFirst : Bool) → Read (List (Node × Node))
  | 0, _ => failure
  | steps + 1, isFirst => do
    if (← peek) = .flowMappingEnd then
      skip
      pure []
    else
      if !isFirst then
        if (← peek) = .flowEntry then skip else failure
      match ← peek with
      | .flowMappingEnd =>
        skip
        pure []
      | .key =>
        skip
        let key ← nodeUnless steps [.value, .flowEntry, .flowMappingEnd] false false
        let value ← valueUnless steps [.flowEntry, .flowMappingEnd] false
        pure ((key, value) :: (← flowEntries steps false))
      | _ =>
        let key ← node steps false false
        pure ((key, .empty) :: (← flowEntries steps false))

end

/-! ### Documents -/

/-- Reads the directives before a document. Only version 1.1 is known, and nothing is declared
twice. -/
def directives : Nat → (hasVersion : Bool) → Read Unit
  | 0, _ => failure
  | steps + 1, hasVersion => do
    match ← peek with
    | .version major minor =>
      if hasVersion ∨ major ≠ 1 ∨ minor ≠ 1 then failure
      else
        skip
        directives steps true
    | .tagHandle handle start =>
      if ((← get).handles.lookup handle).isSome then failure
      else
        modify fun r => { r with handles := (handle, start) :: r.handles }
        skip
        directives steps hasVersion
    | _ => pure ()

/-- Reads the first document, if there is one. One more token than it needs is looked at. -/
def document (steps : Nat) : Read (Option Node) := do
  let complete (root : Node) : Read (Option Node) := do
    let _ ← peek
    pure (some root)
  match ← peek with
  | .streamEnd => pure none
  | .version .. | .tagHandle .. | .documentStart =>
    directives steps false
    if (← peek) = .documentStart then
      skip
      match ← peek with
      | .version .. | .tagHandle .. | .documentStart | .documentEnd | .streamEnd =>
        complete .empty
      | _ => complete (← node steps true false)
    else failure
  | _ => complete (← node steps true false)

end Reader

/-- The first document of a stream of bytes: `none` when it cannot be read, `some none` when the
stream holds no document. -/
def Node.ofText? (t : Text) : Option (Option Node) :=
  match stream t with
  | none => none
  | some cs =>
    let tokens := (Tokens.ofChars cs).usable
    ((Reader.document (4 * tokens.length + 4)).run { tokens := tokens }).map (·.1)

end Yaml

end Phrasebook
