import Phrasebook.Batch.Protocol
import Phrasebook.Book.Check

/-!
# A book that many use

A book may be replaced while calls on it are under way. A call reads the book once, when it begins,
and does all its work with the book that it read: a parse tries one pattern after the other, and many
inputs or cases are a batch. A reload builds a new book first, and only if that succeeds does the new
book take the place of the former, which may be much later.

A history is a list of events. `Shared.step` is what an event does if it is possible, so the histories
that can happen are those that `Shared.run` carries out.
-/

namespace Phrasebook

namespace Book

/-- What a call asks for. -/
inductive Query where
  /-- To parse an input. -/
  | parse (input : Text)
  /-- To parse inputs. -/
  | parseAll (inputs : List Text)
  /-- To run cases. -/
  | runCases (cases : List Case)
  /-- To run the book's own cases. -/
  | check

/-- What a call gives. -/
inductive Answer where
  /-- A parse, if there is one. -/
  | parse (parse : Option Parse)
  /-- The parses of inputs, unless the call was stopped. -/
  | parseAll (parses : Except Batch.Stop (List (Option Parse)))
  /-- The outcomes of cases, unless the call was stopped. -/
  | runCases (results : Except Batch.Stop (List CaseResult))

/-- What a call gives when it is alone, and was stopped before it began or not at all. -/
def Query.answer (book : Book) (stopped : Option Batch.Stop) : Query → Answer
  | .parse input => .parse (book.parse input)
  | .parseAll inputs => .parseAll (book.parseAll stopped inputs)
  | .runCases cases => .runCases (book.runCases stopped cases)
  | .check => .runCases (book.check stopped)

/-- A parse under way. -/
inductive Parsing where
  /-- It is about to go on to the next of these phrases. -/
  | between (ctx : Context Value) (phrases : List Phrase)
  /-- It is about to try the next of these patterns of a phrase, which has this index; these phrases
  come after it. -/
  | trying (ctx : Context Value) (phrase : Phrase) (index : Nat) (patterns : List Pattern)
    (phrases : List Phrase)
  /-- It is over. -/
  | done (parse : Option Parse)

namespace Parsing

/-- A parse before it begins. -/
def start (book : Book) : Parsing :=
  .between {} book.phrases

/-- The next step of a parse, which tries one pattern or goes on to the next phrase. -/
def step (matcher : Matcher Value) (input : Text) : Parsing → Option Parsing
  | .between _ [] => some (.done none)
  | .between ctx (phrase :: rest) => some (.trying ctx phrase 0 phrase.patterns rest)
  | .trying ctx _ _ [] rest => some (.between ctx rest)
  | .trying ctx phrase index (p :: ps) rest =>
    match matcher.matchAll input p ctx.reset with
    | (some outcome, _) => some (.done (some ⟨phrase, index, outcome⟩))
    | (none, ctx) => some (.trying ctx phrase (index + 1) ps rest)
  | .done _ => none

end Parsing

/-- The work of a call. -/
inductive Work where
  /-- An input is parsed. -/
  | parse (input : Text) (parsing : Parsing)
  /-- Inputs are parsed in a batch. -/
  | parseAll (inputs : List Text) (batch : Batch.Protocol.State (Option Parse))
  /-- Cases are run in a batch. -/
  | runCases (cases : List Case) (batch : Batch.Protocol.State CaseResult)

/-- What can happen to a call. -/
inductive CallAction where
  /-- Its parse takes a step. -/
  | parse
  /-- Something happens to its batch. -/
  | batch (action : Batch.Protocol.Action)

/-- A call. -/
structure Call where
  /-- The book that it read when it began. -/
  book : Book
  /-- Its work. -/
  work : Work

/-- What is in the cell of a case before there is an outcome. -/
def CaseResult.blank : CaseResult := ⟨⟨[], [], none, none⟩, none, []⟩

namespace Call

/-- A call begins by reading the book; the book's own cases come with it. -/
def start (book : Book) : Query → Call
  | .parse input => ⟨book, .parse input (.start book)⟩
  | .parseAll inputs => ⟨book, .parseAll inputs (Batch.Protocol.start none inputs.length)⟩
  | .runCases cases => ⟨book, .runCases cases (Batch.Protocol.start .blank cases.length)⟩
  | .check => ⟨book, .runCases book.cases (Batch.Protocol.start .blank book.cases.length)⟩

/-- What can happen to a call, for a number of slots in each batch. -/
def step (slots : Nat) (call : Call) : CallAction → Option Call
  | .parse =>
    match call.work with
    | .parse input parsing =>
      (parsing.step call.book.matcher input).map fun parsing =>
        { call with work := .parse input parsing }
    | _ => none
  | .batch action =>
    match call.work with
    | .parse _ _ => none
    | .parseAll inputs batch =>
      (Batch.Protocol.step slots call.book.parse inputs batch action).map fun batch =>
        { call with work := .parseAll inputs batch }
    | .runCases cases batch =>
      (Batch.Protocol.step slots call.book.runCase cases batch action).map fun batch =>
        { call with work := .runCases cases batch }

/-- What a call gives, when it is over. -/
def answer? (call : Call) : Option Answer :=
  match call.work with
  | .parse _ (.done parse) => some (.parse parse)
  | .parse _ _ => none
  | .parseAll _ batch => batch.outcome?.map .parseAll
  | .runCases _ batch => batch.outcome?.map .runCases

end Call

/-- A reload that has built its book. -/
structure Reload where
  /-- The new book. -/
  book : Book
  /-- Whether it has taken the place of the former. -/
  swapped : Bool := false

/-- A book in use. -/
structure Shared where
  /-- The book that new calls read. -/
  book : Book
  /-- The reloads that have built their books, in that order. -/
  reloads : List Reload := []
  /-- What the reloads that have failed gave. -/
  failures : List BuildError := []
  /-- The calls, in the order in which they began. -/
  calls : List Call := []

/-- What happens to a book in use. -/
inductive Event where
  /-- A reload builds its book. -/
  | build (config : Option Config)
  /-- The book of a reload takes the place of the former. -/
  | swap (reload : Nat)
  /-- A call begins. -/
  | call (query : Query)
  /-- Something happens to a call. -/
  | work (call : Nat) (action : CallAction)

namespace Shared

/-- A book is built and taken into use. -/
def new (dialect : Regex.Dialect) (config : Option Config) : Except BuildError Shared :=
  (build? dialect config).map fun book => { book }

/-- What an event does if it is possible. -/
def step (dialect : Regex.Dialect) (slots : Nat) (s : Shared) : Event → Option Shared
  | .build config =>
    match build? dialect config with
    | .ok book => some { s with reloads := s.reloads ++ [⟨book, false⟩] }
    | .error error => some { s with failures := s.failures ++ [error] }
  | .swap k =>
    match s.reloads[k]? with
    | some ⟨book, false⟩ => some { s with book := book, reloads := s.reloads.set k ⟨book, true⟩ }
    | _ => none
  | .call query => some { s with calls := s.calls ++ [.start s.book query] }
  | .work c action => do
    let call ← s.calls[c]?
    let call ← call.step slots action
    some { s with calls := s.calls.set c call }

/-- What events do one after the other, if all are possible. -/
def run (dialect : Regex.Dialect) (slots : Nat) (s : Shared) (events : List Event) : Option Shared :=
  events.foldlM (step dialect slots) s

end Shared

end Book

end Phrasebook
