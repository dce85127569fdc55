import Phrasebook.Text

/-!
# Files and folders

A tree of files and folders, and what a path leads to in it. A path is read name by name: `.` stays,
`..` goes to the folder around, and every name but the last has to be that of a folder.
-/

namespace Phrasebook

/-- What a name in a folder stands for. -/
inductive Entry where
  /-- A file with its contents. -/
  | file (contents : Text)
  /-- A folder with its entries. -/
  | folder (entries : List (Text × Entry))
  deriving Repr

/-- Why a path cannot be used. -/
inductive PathFault where
  /-- There is nothing of this name. -/
  | missing
  /-- A name on the way is not that of a folder. -/
  | notFolder
  /-- There is a folder where a file is asked for. -/
  | isFolder
  deriving DecidableEq, Repr

namespace PathFault

/-- The fault in words. -/
def message : PathFault → Text
  | .missing => Text.ofString "no such file or directory"
  | .notFolder => Text.ofString "not a directory"
  | .isFolder => Text.ofString "is a directory"

end PathFault

namespace Path

/-- The byte between two names. -/
def separator : UInt8 := 0x2F

/-- The names of a path. -/
def names (path : Text) : List Text :=
  Text.splitOn separator path

/-- Whether a name stays where it is. -/
def isHere (name : Text) : Bool :=
  name.isEmpty || name == Text.ofString "."

/-- Whether a name goes to the folder around. -/
def isUp (name : Text) : Bool :=
  name == Text.ofString ".."

/-- Adds a name to names without detours, the latest first. Above the start there are only `..`, and
above the root of everything there is nothing. -/
def addName (fromRoot : Bool) (before : List Text) (name : Text) : List Text :=
  if isHere name then before
  else if isUp name then
    match before with
    | [] => if fromRoot then [] else [name]
    | last :: rest => if isUp last then name :: before else rest
  else name :: before

/-- A path without detours. -/
def clean (path : Text) : Text :=
  let fromRoot := path.head? = some separator
  let kept := ((names path).foldl (addName fromRoot) []).reverse
  if fromRoot then separator :: Text.join [separator] kept
  else if kept.isEmpty then Text.ofString "."
  else Text.join [separator] kept

/-- The path of the folder that a path is in. -/
def folderOf (path : Text) : Text :=
  clean (Text.join [separator] (names (clean path)).dropLast)

/-- The path of a name in a folder. -/
def child (folder name : Text) : Text :=
  clean (folder ++ separator :: name)

end Path

namespace Entry

/-- A folder with nothing in it. -/
def empty : Entry :=
  .folder []

/-- The entry that names lead to, one inside the other. -/
def at? : List Text → Entry → Option Entry
  | [], e => some e
  | name :: rest, .folder entries =>
    match entries.lookup name with
    | some e => at? rest e
    | none => none
  | _ :: _, .file _ => none

/-- Puts something where names lead to. Folders on the way are made where they are missing. -/
def put (new : Entry) : List Text → Entry → Entry
  | [], _ => new
  | name :: rest, .folder entries =>
    let inner := put new rest ((entries.lookup name).getD empty)
    if (entries.lookup name).isSome then
      .folder (entries.map fun (other, e) => (other, if other = name then inner else e))
    else .folder (entries ++ [(name, inner)])
  | name :: rest, .file _ => .folder [(name, put new rest empty)]

/-- The names without detours that a path leads along, from those it has passed. -/
def locate (root : Entry) : List Text → List Text → Except PathFault (List Text)
  | passed, [] => .ok passed
  | passed, name :: rest =>
    match root.at? passed with
    | some (.folder entries) =>
      if Path.isHere name then locate root passed rest
      else if Path.isUp name then
        if passed.isEmpty then .error .missing else locate root passed.dropLast rest
      else if (entries.lookup name).isSome then locate root (passed ++ [name]) rest
      else .error .missing
    | some (.file _) => .error .notFolder
    | none => .error .missing

/-- What a path leads to, from a folder. Nothing outside the folder can be reached. -/
def find (root : Entry) (path : Text) : Except PathFault Entry :=
  if path.isEmpty ∨ path.head? = some Path.separator then .error .missing
  else
    match root.locate [] (Path.names path) with
    | .ok names =>
      match root.at? names with
      | some e => .ok e
      | none => .error .missing
    | .error e => .error e

/-- Writes a file. The folder it is in has to be there. -/
def write (root : Entry) (path contents : Text) : Except PathFault Entry :=
  if path.isEmpty ∨ path.head? = some Path.separator then .error .missing
  else
    let names := Path.names path
    let last := names.getLast?.getD []
    match root.locate [] names.dropLast with
    | .error e => .error e
    | .ok inside =>
      match root.at? inside with
      | some (.folder entries) =>
        if Path.isHere last ∨ Path.isUp last then .error .isFolder
        else
          match entries.lookup last with
          | some (.folder _) => .error .isFolder
          | _ => .ok (put (.file contents) (inside ++ [last]) root)
      | some (.file _) => .error .notFolder
      | none => .error .missing

mutual

/-- The files in a tree with the names that lead to them, after some names. -/
def filesBelow (names : List Text) : Entry → List (List Text × Text)
  | .file contents => [(names, contents)]
  | .folder entries => filesAmong names entries

/-- The files among the entries of a folder, with the names that lead to them. -/
def filesAmong (names : List Text) : List (Text × Entry) → List (List Text × Text)
  | [] => []
  | (name, e) :: rest => filesBelow (names ++ [name]) e ++ filesAmong names rest

end

end Entry

end Phrasebook
