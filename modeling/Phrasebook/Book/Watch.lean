import Phrasebook.Book
import Phrasebook.Config.Load

/-!
# Keeping a book up to date with its file

A book is loaded again when its definition file has changed. If the file cannot be used, the book
stays as it was.
-/

namespace Phrasebook

namespace Book

/-- Why a book stays as it was. -/
inductive ReloadError where
  /-- The file cannot be loaded. -/
  | load (e : Config.LoadError)
  /-- Its definitions cannot be used. -/
  | build (e : BuildError)

namespace ReloadError

/-- The error in words. -/
def message : ReloadError → Text
  | .load e => e.message
  | .build e => e.message

end ReloadError

/-- Loads a book again, from what the path of its file leads to. -/
def reloadFile (dialect : Regex.Dialect) (book : Book) (path : Text)
    (found : Except PathFault Entry) : Book × Option ReloadError :=
  match Config.load path found with
  | .error e => (book, some (.load e))
  | .ok config =>
    match book.reload dialect (some config) with
    | (book, none) => (book, none)
    | (book, some e) => (book, some (.build e))

/-- Whether a file can be watched: the folder that it is or will be in has to be there. -/
def canWatch (root : Entry) (path : Text) : Bool :=
  match root.find (Path.folderOf path) with
  | .ok (.folder _) => true
  | _ => false

end Book

end Phrasebook
