import Phrasebook.Config
import Phrasebook.Files

/-!
# Finding definition files

The definition files in a folder are those whose extension stands for a format, in the folder and in
the folders below it, except in hidden ones, whose names begin with a point. They are listed in the
order of their paths.
-/

namespace Phrasebook

/-- A file that was found. -/
structure FoundFile where
  /-- Its path. -/
  path : Text
  /-- Its format, if its extension stands for one. -/
  format : Option Format
  /-- The number of its bytes. -/
  size : Nat
  deriving DecidableEq, Repr

namespace Entry

/-- Whether the name of a folder is hidden. -/
def isHidden (name : Text) : Bool :=
  name.head? == some 0x2E

/-- The format of a file, if its extension stands for one. -/
def formatOf? (path : Text) : Option Format :=
  Format.ofExtension? (Format.extension path)

mutual

/-- The definition files of an entry of a folder. -/
def walk (folder name : Text) : Entry → List FoundFile
  | .file contents =>
    let path := Path.child folder name
    match formatOf? path with
    | some format => [⟨path, some format, contents.length⟩]
    | none => []
  | .folder entries => if isHidden name then [] else walkAll (Path.child folder name) entries

/-- The definition files of the entries of a folder. -/
def walkAll (folder : Text) : List (Text × Entry) → List FoundFile
  | [] => []
  | (name, e) :: rest => walk folder name e ++ walkAll folder rest

end

/-- The definition files that a path leads to: those in the folder, or the file itself whatever its
extension. -/
def scan (path : Text) : Entry → List FoundFile
  | .file contents => [⟨path, formatOf? path, contents.length⟩]
  | .folder entries => (walkAll path entries).mergeSort fun a b => a.path.le b.path

end Entry

/-- A path to scan that cannot be used. -/
structure ScanError where
  /-- The path. -/
  path : Text
  /-- What is wrong with it. -/
  fault : PathFault
  deriving DecidableEq, Repr

namespace ScanError

/-- The error in words. -/
def message (e : ScanError) : Text :=
  Text.ofString "stat " ++ e.path ++ Text.ofString ": " ++ e.fault.message

end ScanError

/-- The definition files of a path, from what it leads to. -/
def scan (path : Text) (found : Except PathFault Entry) : Except ScanError (List FoundFile) :=
  match found with
  | .ok e => .ok (e.scan path)
  | .error fault => .error ⟨path, fault⟩

end Phrasebook
