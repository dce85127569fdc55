import Phrasebook.Book.Check
import Phrasebook.Report.Style
import Phrasebook.Report.Tree

/-!
# Reports on matches and cases

A report on a match shows the pattern, the input, and below the input an underline of the part that
matched, or a caret where nothing did; the mark and the values follow. Tab stops are eight columns
apart and are counted from the beginning of the input, not of the printed line, which has a margin
in front: the underline sits below the text that it marks when no tab comes before that text.
-/

namespace Phrasebook

namespace Report

/-- The columns between two tab stops. -/
def tabWidth : Nat := 8

/-- The column after a character. -/
def nextColumn (column : Nat) (c : Char) : Nat :=
  if c = '\t' then column + (tabWidth - column % tabWidth) else column + 1

/-- The column reached by the characters that begin before an offset. -/
def columnFrom (offset : Int) (pos column : Nat) : List (Char × Nat) → Nat
  | [] => column
  | (c, width) :: rest =>
    if offset ≤ pos then column
    else columnFrom offset (pos + width) (nextColumn column c) rest

/-- The column of an offset in a line. -/
def column (line : Text) (offset : Int) : Nat :=
  columnFrom offset 0 0 line.frontList

/-- What a report shows of a match. -/
structure Finding where
  /-- Where the match stopped. -/
  stop : Int
  /-- Its mark. -/
  mark : Mark
  /-- Its values. -/
  values : List Text

/-- What a report is about. -/
structure Subject where
  /-- The name of what was matched. -/
  title : Text
  /-- The pattern, if there is one to show. -/
  pattern : Text
  /-- The input. -/
  input : Text
  /-- Where the match began. -/
  start : Int
  /-- What was found, if anything. -/
  finding : Option Finding

namespace Subject

/-- The lines that say what was matched. -/
def header (colours : Bool) (s : Subject) : Text :=
  (if s.finding.isSome then Style.success.paint colours (Text.ofString "match: ")
    else Style.failure.paint colours (Text.ofString "error: ")) ++
    Style.name.paint colours (s.title ++ [0x0A]) ++
    (if s.pattern.isEmpty then []
      else Style.frame.paint colours (Text.ofString " --> ") ++
        Style.pattern.paint colours (s.pattern ++ [0x0A]))

/-- What stands in front of the input and of its underline. -/
def margin (colours : Bool) : Text :=
  Style.frame.paint colours (Text.ofString "  | ")

/-- The lines with the input. -/
def snippet (colours : Bool) (s : Subject) : Text :=
  Style.frame.paint colours (Text.ofString "  |\n") ++ margin colours ++ s.input ++ [0x0A]

/-- The line below the input: blanks up to the column where the match began, and then a tilde for
each column that matched, or a caret. -/
def underline (colours : Bool) (s : Subject) : Text :=
  let start := column s.input s.start
  margin colours ++ List.replicate start 0x20 ++
    match s.finding with
    | none =>
      Style.failure.paint colours (Text.ofString "^\n") ++
        Style.frame.paint colours (Text.ofString "  = ") ++
        Style.failure.paint colours (Text.ofString "no match\n")
    | some f =>
      let width := column s.input f.stop - start
      if width = 0 then Style.failure.paint colours (Text.ofString "^\n")
      else Style.value.paint colours (List.replicate width 0x7E ++ [0x0A])

/-- The lines with the mark and the values. -/
def details (colours : Bool) (s : Subject) : Text :=
  match s.finding with
  | none => []
  | some f =>
    let bullet := Style.frame.paint colours (Text.ofString "  = ")
    bullet ++ Text.ofString "mark: " ++ Text.ofInt f.mark.toInt ++ [0x0A] ++
      (if f.values.isEmpty then []
        else bullet ++ Text.ofString "values: " ++
          Text.join [0x2C, 0x20] (f.values.map (Style.value.paint colours)) ++ [0x0A])

/-- The whole report. -/
def text (colours : Bool) (s : Subject) : Text :=
  s.header colours ++ s.snippet colours ++ s.underline colours ++ s.details colours

end Subject

/-- A capture as reports show it. -/
def captureText (c : Capture) : Text :=
  [0x3C] ++ c.text ++ [0x3E]

/-- The report on a match of a pattern at an offset. -/
def ofMatch (colours : Bool) (pattern input : Text) (offset : Int)
    (outcome : Option (Outcome Value)) : Text :=
  Subject.text colours
    { title := Text.ofString "match"
      pattern := pattern
      input := input
      start := offset
      finding := outcome.map fun o =>
        ⟨o.stop, o.mark, o.describeValues ++ o.captures.map captureText⟩ }

/-- The report on the parse of an input. -/
def ofParse (colours : Bool) (input : Text) (parse : Option Parse) : Text :=
  match parse with
  | none =>
    Subject.text colours ⟨Text.ofString "no syntax matched", [], input, 0, none⟩
  | some p =>
    Subject.text colours
      { title := p.phrase.name
        pattern := p.phrase.sources[p.index]?.getD []
        input := input
        start := 0
        finding := some ⟨p.outcome.stop, p.outcome.mark, p.outcome.describeValues⟩ }

/-- What a report on cases shows of one. -/
structure CaseLine where
  /-- The input. -/
  input : Text
  /-- Whether the case passed. -/
  passed : Bool
  /-- Why it failed. -/
  reason : Text

/-- The lines of a case. -/
def caseText (colours : Bool) (c : CaseLine) : Text :=
  if c.passed then
    Style.success.paint colours (Text.ofString "PASS ") ++ c.input ++ [0x0A]
  else
    Style.failure.paint colours (Text.ofString "FAIL ") ++ c.input ++ [0x0A] ++
      Style.frame.paint colours (Text.ofString "  = ") ++
      Style.failure.paint colours (c.reason ++ [0x0A])

/-- The report on cases: each of them, and how many passed and failed. -/
def ofCases (colours : Bool) (cases : List CaseLine) : Text :=
  let failed := (cases.filter fun c => !c.passed).length
  let summary := Text.ofNat (cases.length - failed) ++ Text.ofString " passed, " ++
    Text.ofNat failed ++ Text.ofString " failed\n"
  cases.flatMap (caseText colours) ++
    (if failed = 0 then Style.success else Style.failure).paint colours summary

/-- A result as reports show it. -/
def caseLine (r : Book.CaseResult) : CaseLine :=
  ⟨r.case.input, r.passed, r.reason⟩

end Report

end Phrasebook
