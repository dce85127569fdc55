import Phrasebook.Cli

/-!
# The program

Runs the command line on the files of the machine. What it prints and how it fails is decided in
`Phrasebook.Cli`; here files are read and written and texts are printed.
-/

namespace Phrasebook

/-- Reads a file, or a folder with all that is in it. -/
partial def readEntry (path : String) : IO Entry := do
  let place := (← IO.currentDir) / path
  if ← place.isDir then
    let names := (← place.readDir).toList.map (·.fileName)
    let entries ← names.mapM fun name => do
      return (Text.ofString name, ← readEntry (path ++ "/" ++ name))
    return .folder entries
  else return .file (← IO.FS.readBinFile place).toList

/-- The fault behind an error. -/
def faultOf : IO.Error → PathFault
  | .inappropriateType .. => .notFolder
  | _ => .missing

/-- A path as a string. -/
def pathString (path : Text) : String :=
  String.ofList path.chars

/-- What a path leads to. -/
def findEntry (path : Text) : IO (Except PathFault Entry) := do
  if path.isEmpty then return .error .missing
  try return .ok (← readEntry (pathString path))
  catch e => return .error (faultOf e)

/-- Writes a file. -/
def writeEntry (path contents : Text) : IO (Option PathFault) := do
  try
    IO.FS.writeBinFile (pathString path) ⟨contents.toArray⟩
    return none
  catch e => return some (faultOf e)

/-- The disk of the machine. -/
def machine : Cli.Disk IO := ⟨findEntry, writeEntry⟩

/-- Prints a text. -/
def printText (t : Text) : IO Unit := do
  let out ← IO.getStdout
  out.write ⟨t.toArray⟩
  out.flush

/-- Prints a report whenever a definition file has changed. -/
partial def follow (o : Cli.Options) (book : Book) (before : Option Text) : IO Unit := do
  IO.sleep 100
  let found ← findEntry o.config
  let now := match found with
    | .ok (.file contents) => some contents
    | _ => none
  if now = before then follow o book before
  else
    let (book, report) := Cli.onChange o book found
    printText report
    follow o book now

end Phrasebook

open Phrasebook in
/-- Runs the program. -/
def main (args : List String) : IO UInt32 := do
  let args := args.map Text.ofString
  let result ← Cli.run machine args
  printText result.output
  match result.error with
  | some e =>
    IO.eprintln ("Error: " ++ String.ofList e.message.chars)
    return 1
  | none =>
    match Cli.readLine args with
    | .ok (some .watch, line) =>
      match ← Cli.loadBook machine line.options.config with
      | .ok book =>
        let contents := match ← findEntry line.options.config with
          | .ok (.file contents) => some contents
          | _ => none
        follow line.options book contents
        return 0
      | .error _ => return 1
    | _ => return 0
