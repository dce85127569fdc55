import Phrasebook.Batch
import Phrasebook.Book

/-!
# Checking a book against cases

A case passes when its input parses as it says: as the expected phrase or, if it expects none, not
at all, and with the mark and the values it asks for.
-/

namespace Phrasebook

namespace Book

/-- The outcome of a case. -/
structure CaseResult where
  /-- The case. -/
  case : Case
  /-- What its input parsed as. -/
  parse : Option Parse
  /-- Why it failed; empty when it passed. -/
  reason : Text

namespace CaseResult

/-- Whether the case passed. -/
def passed (r : CaseResult) : Bool :=
  r.reason.isEmpty

end CaseResult

/-- Why a parse fails the mark that is asked for. -/
def markReason (case : Case) (parse : Parse) : Option Text :=
  match case.mark with
  | none => none
  | some mark =>
    let found := parse.outcome.mark.toInt
    if found = mark then none
    else
      some (Text.ofString "mark " ++ Text.ofInt found ++ Text.ofString ", expected " ++
        Text.ofInt mark)

/-- Why a parse fails the values that are asked for. -/
def valuesReason (case : Case) (parse : Parse) : Option Text :=
  match case.values with
  | none => none
  | some values =>
    let found := parse.outcome.describeValues
    if found = values then none
    else
      some (Text.ofString "values " ++ Text.quotedList found ++ Text.ofString ", expected " ++
        Text.quotedList values)

/-- Why a parse fails a case; empty when the case passes. -/
def caseReason (case : Case) (parse : Option Parse) : Text :=
  if case.expect.isEmpty then
    match parse with
    | some p =>
      Text.ofString "parsed as " ++ p.phrase.name ++ Text.ofString ", expected no match"
    | none => []
  else
    match parse with
    | none => Text.ofString "no match, expected " ++ case.expect
    | some p =>
      if p.phrase.name ≠ case.expect then
        Text.ofString "parsed as " ++ p.phrase.name ++ Text.ofString ", expected " ++ case.expect
      else
        match markReason case p with
        | some reason => reason
        | none => (valuesReason case p).getD []

/-- Runs a case. -/
def runCase (book : Book) (case : Case) : CaseResult :=
  let parse := book.parse case.input
  ⟨case, parse, caseReason case parse⟩

/-- Runs cases in order. -/
def runCases (book : Book) (stopped : Option Batch.Stop) (cases : List Case) :
    Except Batch.Stop (List CaseResult) :=
  Batch.run stopped book.runCase cases

/-- Runs the book's own cases. -/
def check (book : Book) (stopped : Option Batch.Stop) : Except Batch.Stop (List CaseResult) :=
  book.runCases stopped book.cases

/-- Parses inputs in order. -/
def parseAll (book : Book) (stopped : Option Batch.Stop) (inputs : List Text) :
    Except Batch.Stop (List (Option Parse)) :=
  Batch.run stopped book.parse inputs

end Book

end Phrasebook
