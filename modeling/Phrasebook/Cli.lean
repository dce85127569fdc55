import Phrasebook.Book.Watch
import Phrasebook.Cli.Arguments
import Phrasebook.Files.Scan
import Phrasebook.Report
import Phrasebook.Text.Json

/-!
# The command line program

Each command reads definition files, does its work and prints a report. It finds and writes files by
the operations of a disk, so that it runs with the files of the machine as well as with a tree of
files that is held in memory.
-/

namespace Phrasebook

namespace Cli

/-- What the program needs of a disk. -/
structure Disk (m : Type → Type) where
  /-- What a path leads to. -/
  find : Text → m (Except PathFault Entry)
  /-- Writes a file; gives the fault if it cannot. -/
  write : Text → Text → m (Option PathFault)

/-- A disk that is a tree of files in memory. -/
def memory : Disk (StateM Entry) where
  find path := do return (← get).find path
  write path contents := do
    match (← get).write path contents with
    | .ok root =>
      set root
      return none
    | .error fault => return some fault

/-- Why a command fails. -/
inductive Error where
  /-- The command line cannot be read. -/
  | usage (e : UsageError)
  /-- The definition file cannot be loaded. -/
  | load (e : Config.LoadError)
  /-- The definitions cannot be used. -/
  | build (e : Book.BuildError)
  /-- Patterns cannot be compiled. -/
  | compile (errors : List Pattern.CompileError)
  /-- The offset is not one in the input. -/
  | offsetOutside (offset : Int)
  /-- The pattern does not match. -/
  | noMatch
  /-- Some inputs do not parse. -/
  | noMatches (number total : Nat)
  /-- The work was stopped. -/
  | stopped (reason : Batch.Stop)
  /-- A path cannot be used. -/
  | noAccess (e : ScanError)
  /-- Some definition files cannot be used. -/
  | broken (number total : Nat)
  /-- Some cases failed. -/
  | failed (number total : Nat)
  /-- The definition file to start from has no format. -/
  | startFormat (e : Format.Error)
  /-- The definition file to start from cannot be written. -/
  | startWrite (path : Text) (fault : PathFault)

namespace Error

/-- A number out of a total. -/
def outOf (number total : Nat) : Text :=
  Text.ofNat number ++ Text.ofString " of " ++ Text.ofNat total

/-- The error in words. -/
def message : Error → Text
  | .usage e => e.message
  | .load e => e.message
  | .build e => e.message
  | .compile errors => Text.join [0x0A] (errors.map (·.message))
  | .offsetOutside offset =>
    Text.ofString "offset " ++ Text.ofInt offset ++ Text.ofString " is outside the input"
  | .noMatch => Text.ofString "no match"
  | .noMatches number total =>
    Text.ofString "no match: " ++ outOf number total ++ Text.ofString " inputs"
  | .stopped reason => Text.ofString reason.message
  | .noAccess e =>
    Text.ofString "error accessing " ++ e.path ++ Text.ofString ": " ++ e.message
  | .broken number total =>
    outOf number total ++ Text.ofString " definition files could not be checked"
  | .failed number total => outOf number total ++ Text.ofString " cases failed"
  | .startFormat e => Text.ofString "error initializing definition file: " ++ e.message
  | .startWrite path fault =>
    Text.ofString "error initializing definition file: open " ++ path ++ Text.ofString ": " ++
      fault.message

end Error

/-- What a run of the program gives. -/
structure Result where
  /-- What it prints. -/
  output : Text := []
  /-- Why it fails, if it does. -/
  error : Option Error := none

namespace Result

/-- A run that fails without printing. -/
def failed (e : Error) : Result :=
  { error := some e }

end Result

variable {m : Type → Type} [Monad m]

/-- Regular expressions as definition files use them. -/
def dialect : Regex.Dialect := Regex.backtracking

/-- Why work with a time to keep does not begin. -/
def stopOf (o : Options) : Option Batch.Stop :=
  if o.timeout ≤ 0 then some .deadline else none

/-- The book of a configuration that was loaded. -/
def bookOf (loaded : Except Config.LoadError Config) : Except Error Book :=
  match loaded with
  | .error e => .error (.load e)
  | .ok config =>
    match Book.build dialect config with
    | .ok book => .ok book
    | .error e => .error (.build e)

/-- The book of a definition file. -/
def loadBook (disk : Disk m) (path : Text) : m (Except Error Book) := do
  return bookOf (Config.load path (← disk.find path))

/-- The book of a definition file, or one with the usual types alone if there is no such file. -/
def loadBookOrUsual (disk : Disk m) (path : Text) : m (Except Error Book) := do
  match Config.load path (← disk.find path) with
  | .error e =>
    if e.isMissing then return bookOf (.ok { name := Text.ofString "builtin" })
    else return .error (.load e)
  | .ok config => return bookOf (.ok config)

/-! ### Commands -/

/-- Writes the definition file to start from. -/
def start (disk : Disk m) (o : Options) : m Result := do
  let path := if o.config.isEmpty then Options.config {} else o.config
  match Format.ofPath path with
  | .error e => return .failed (.startFormat e)
  | .ok format =>
    match ← disk.write path (Config.starter.encode format) with
    | some fault => return .failed (.startWrite path fault)
    | none =>
      return { output := Text.ofString "Definition file created/updated: " ++ o.config ++ [0x0A] }

/-- The trees of patterns, and the errors of those that cannot be compiled. -/
def trees (book : Book) (sources : List Text) : Result :=
  let compiled := sources.map (Pattern.compile dialect book.registry)
  let errors := compiled.filterMap fun r =>
    match r with
    | .error e => some e
    | .ok _ => none
  { output := compiled.flatMap fun r =>
      match r with
      | .ok p => p.render ++ 0x0A :: Report.tree false p
      | .error _ => []
    error := if errors.isEmpty then none else some (.compile errors) }

/-- Compiles patterns and shows their trees. -/
def compile (disk : Disk m) (o : Options) (sources : List Text) : m Result := do
  match ← loadBookOrUsual disk o.config with
  | .error e => return .failed e
  | .ok book => return trees book sources

/-- The outcome of a match in JSON. -/
def matchJson (pattern : Text) (outcome : Option (Outcome Value)) : Text :=
  let field (name : String) (value : Text) : Text := (Text.ofString name).json ++ 0x3A :: value
  let list (name : String) (values : List Text) : List Text :=
    if values.isEmpty then [] else [field name (Text.jsonList values)]
  let stop : Int := (outcome.map (·.stop)).getD 0
  let mark : Int := (outcome.map (·.mark.toInt)).getD 0
  let fields :=
    [field "pattern" pattern.json,
      field "matched" (Text.ofString (if outcome.isSome then "true" else "false")),
      field "end" (Text.ofInt stop), field "mark" (Text.ofInt mark)] ++
    (match outcome with
      | some o => list "values" o.describeValues ++ list "captures" (o.captures.map (·.text))
      | none => [])
  0x7B :: (Text.join [0x2C] fields ++ [0x7D, 0x0A])

/-- Matches a pattern with an input. -/
def matchOne (disk : Disk m) (o : Options) (source input : Text) : m Result := do
  if o.offset < 0 ∨ (input.length : Int) < o.offset then return .failed (.offsetOutside o.offset)
  else
    match ← loadBookOrUsual disk o.config with
    | .error e => return .failed e
    | .ok book =>
      match Pattern.compile dialect book.registry source with
      | .error e => return .failed (.compile [e])
      | .ok pattern =>
        let (outcome, _) := book.matchAt pattern input o.offset
        return {
          output :=
            if o.json then matchJson source outcome
            else Report.ofMatch false source input o.offset outcome
          error := if outcome.isSome then none else some .noMatch }

/-- Parses inputs. -/
def parse (disk : Disk m) (o : Options) (inputs : List Text) : m Result := do
  match ← loadBook disk o.config with
  | .error e => return .failed e
  | .ok book =>
    match book.parseAll (stopOf o) inputs with
    | .error reason => return .failed (.stopped reason)
    | .ok parses =>
      let missed := (parses.filter (·.isNone)).length
      return {
        output := (inputs.zip parses).flatMap fun (input, p) => Report.ofParse false input p
        error := if missed = 0 then none else some (.noMatches missed inputs.length) }

/-- The results of the cases of a definition file. -/
def checkFile (disk : Disk m) (o : Options) (path : Text) :
    m (Except Error (List Book.CaseResult)) := do
  match ← loadBook disk path with
  | .error e => return .error e
  | .ok book =>
    match book.check (stopOf o) with
    | .error reason => return .error (.stopped reason)
    | .ok results => return .ok results

/-- What was checked so far. -/
structure Tally where
  /-- What is printed. -/
  output : Text := []
  /-- The files that cannot be used. -/
  broken : Nat := 0
  /-- The cases that failed. -/
  failed : Nat := 0
  /-- All cases. -/
  total : Nat := 0

/-- Checks a definition file and counts. -/
def Tally.add (disk : Disk m) (o : Options) (t : Tally) (path : Text) : m Tally := do
  match ← checkFile disk o path with
  | .error e =>
    return { t with
      output := t.output ++ Text.ofString "error: " ++ path ++ Text.ofString ": " ++ e.message ++
        [0x0A]
      broken := t.broken + 1 }
  | .ok results =>
    return { t with
      output := t.output ++ path ++ 0x0A :: Report.ofCases false (results.map Report.caseLine)
      failed := t.failed + (results.filter fun r => !r.passed).length
      total := t.total + results.length }

/-- The definition files that paths lead to. -/
def scanAll (disk : Disk m) : List Text → m (Except Error (List FoundFile))
  | [] => return .ok []
  | path :: rest => do
    match scan path (← disk.find path) with
    | .error e => return .error (.noAccess e)
    | .ok found =>
      match ← scanAll disk rest with
      | .error e => return .error e
      | .ok more => return .ok (found ++ more)

/-- Runs the cases of definition files. -/
def check (disk : Disk m) (o : Options) (paths : List Text) : m Result := do
  match ← scanAll disk (if paths.isEmpty then [o.config] else paths) with
  | .error e => return .failed e
  | .ok files =>
    let t ← (files.map (·.path)).foldlM (Tally.add disk o) {}
    return {
      output := t.output
      error :=
        if 0 < t.broken then some (.broken t.broken files.length)
        else if 0 < t.failed then some (.failed t.failed t.total)
        else none }

/-- The report on the cases of a book. -/
def casesReport (book : Book) : Text :=
  match book.check none with
  | .ok results => Report.ofCases false (results.map Report.caseLine)
  | .error _ => []

/-- The first report of a definition file that is watched. -/
def watch (disk : Disk m) (o : Options) : m Result := do
  match ← loadBook disk o.config with
  | .error e => return .failed e
  | .ok book =>
    return { output := Text.ofString "watching " ++ o.config ++ 0x0A :: casesReport book }

/-- What is printed when a definition file that is watched has changed, and the book from then on. -/
def onChange (o : Options) (book : Book) (found : Except PathFault Entry) : Book × Text :=
  match book.reloadFile dialect o.config found with
  | (book, some e) => (book, Text.ofString "reload failed: " ++ e.message ++ [0x0A])
  | (book, none) =>
    (book,
      Text.ofString "reloaded " ++ o.config ++ Text.ofString ": " ++ Text.ofNat book.phrases.length ++
        Text.ofString " syntaxes\n" ++ casesReport book)

/-- Runs the program on the arguments of its command line. -/
def run (disk : Disk m) (args : List Text) : m Result := do
  match readLine args with
  | .error e => return .failed (.usage e)
  | .ok (command, line) =>
    let o := line.options
    match command, line.arguments with
    | some .init, _ => start disk o
    | some .compile, sources => compile disk o sources
    | some .matchOne, [source, input] => matchOne disk o source input
    | some .parse, inputs => parse disk o inputs
    | some .check, paths => check disk o paths
    | some .watch, _ => watch disk o
    | _, _ => return {}

end Cli

end Phrasebook
