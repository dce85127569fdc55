import Phrasebook.Yaml.Stream

/-!
# Scalars as they are written

Plain and quoted scalars may run over several lines: a single line end between two lines counts as a
blank, and of several the first is dropped. Block scalars keep their lines, or fold them in the same
way. What a scalar spells and what is left after it is read in one pass over the characters.
-/

namespace Phrasebook

namespace Yaml

/-- A scalar that was read: its characters, what is left, and whether white space with a line end
was passed after it. -/
structure Scanned where
  /-- The characters it spells. -/
  text : List Char
  /-- What is left of the stream. -/
  cursor : Cursor
  /-- Whether the line was left. -/
  lineEnded : Bool := false

/-- White space passed inside a scalar that may yet turn out to be part of it. -/
structure Pending where
  /-- The blanks before any line end, the latest first. -/
  blanks : List Char := []
  /-- Whether the line was left. -/
  lineEnded : Bool := false
  /-- The line end that left it, unless it was escaped. -/
  firstBreak : Option Char := none
  /-- Further line ends, the latest first. -/
  breaks : List Char := []

namespace Pending

/-- Passes a blank. -/
def addBlank (p : Pending) (c : Char) : Pending :=
  if p.lineEnded then p else { p with blanks := c :: p.blanks }

/-- Passes a line end. -/
def addBreak (p : Pending) (c : Char) : Pending :=
  if p.lineEnded then { p with breaks := c :: p.breaks }
  else { lineEnded := true, firstBreak := some c }

/-- What the white space stands for when text follows. -/
def folded (p : Pending) : List Char :=
  if p.lineEnded then
    if p.firstBreak = some '\n' then
      if p.breaks.isEmpty then [' '] else p.breaks.reverse
    else p.firstBreak.toList ++ p.breaks.reverse
  else p.blanks.reverse

/-- Whether nothing was passed. -/
def isNone (p : Pending) : Bool :=
  p.blanks.isEmpty && !p.lineEnded

end Pending

/-! ### Plain scalars -/

/-- Whether a plain scalar ends before what is left. -/
def endsPlain (inFlow : Bool) : List Char → Bool
  | [] => true
  | c :: rest =>
    (c == ':' && endsWord rest) ||
      (inFlow && (c == ',' || c == '?' || c == '[' || c == ']' || c == '{' || c == '}'))

/-- Reads on in a plain scalar. `text` is what was read, the latest first, `pending` the white space
after it, and `indent` the least column a further line may begin at. Fails on a tab that stands for
indentation. -/
def plainFrom (inFlow : Bool) (indent : Int) (text : List Char) (pending : Pending) (place : Place) :
    List Char → Option Scanned
  | [] => some ⟨text.reverse, ⟨[], place⟩, pending.lineEnded⟩
  | c :: rest =>
    let stop : Option Scanned := some ⟨text.reverse, ⟨c :: rest, place⟩, pending.lineEnded⟩
    if isBreak c then plainFrom inFlow indent text (pending.addBreak c) (place.past c) rest
    else if isBlank c then
      if pending.lineEnded ∧ (place.column : Int) < indent ∧ c = '\t' then none
      else plainFrom inFlow indent text (pending.addBlank c) (place.past c) rest
    else if !pending.isNone ∧
        ((!inFlow ∧ (place.column : Int) < indent) ∨ Cursor.atDocumentMark ⟨c :: rest, place⟩ ∨
          c = '#') then stop
    else if endsPlain inFlow (c :: rest) then stop
    else
      plainFrom inFlow indent (c :: (pending.folded.reverse ++ text)) {} (place.past c) rest

/-- Reads a plain scalar. -/
def plain (inFlow : Bool) (indent : Int) (cursor : Cursor) : Option Scanned :=
  plainFrom inFlow indent [] {} cursor.place cursor.rest

/-! ### Quoted scalars -/

/-- Reads on in a single-quoted scalar. -/
def singleQuotedFrom (text : List Char) (pending : Pending) (place : Place) :
    List Char → Option Scanned
  | [] => none
  | c :: rest =>
    if isBreak c then singleQuotedFrom text (pending.addBreak c) (place.past c) rest
    else if isBlank c then singleQuotedFrom text (pending.addBlank c) (place.past c) rest
    else if Cursor.atDocumentMark ⟨c :: rest, place⟩ then none
    else
      let text := pending.folded.reverse ++ text
      if c = '\'' then
        match rest with
        | '\'' :: rest =>
          singleQuotedFrom ('\'' :: text) {} ((place.past c).past c) rest
        | _ => some { text := text.reverse, cursor := ⟨rest, place.past c⟩ }
      else singleQuotedFrom (c :: text) {} (place.past c) rest

/-- The character that a letter after a backslash stands for. -/
def escaped? (c : Char) : Option Char :=
  [('0', 0x00), ('a', 0x07), ('b', 0x08), ('t', 0x09), ('\t', 0x09), ('n', 0x0A), ('v', 0x0B),
    ('f', 0x0C), ('r', 0x0D), ('e', 0x1B), (' ', 0x20), ('"', 0x22), ('\'', 0x27), ('\\', 0x5C),
    ('N', 0x85), ('_', 0xA0), ('L', 0x2028), ('P', 0x2029)].lookup c |>.map Char.ofNat

/-- The number of digits of the code that a letter after a backslash announces. -/
def codeLength? (c : Char) : Option Nat :=
  [('x', 2), ('u', 4), ('U', 8)].lookup c

/-- The value of a hexadecimal digit. -/
def hexDigit? (c : Char) : Option Nat :=
  let n := c.toNat
  if 48 ≤ n ∧ n ≤ 57 then some (n - 48)
  else if 97 ≤ n ∧ n ≤ 102 then some (n - 87)
  else if 65 ≤ n ∧ n ≤ 70 then some (n - 55)
  else none

/-- Whether a number is that of a character. -/
def isCode (n : Nat) : Bool :=
  n < 0xD800 || (0xE000 ≤ n && n ≤ 0x10FFFF)

/-- Where the reader of a double-quoted scalar stands. -/
inductive Escape where
  /-- In the text. -/
  | none
  /-- After a backslash. -/
  | started
  /-- In a code, with digits left to read and the value so far. -/
  | code (left value : Nat)
  deriving DecidableEq

/-- Reads on in a double-quoted scalar. -/
def doubleQuotedFrom (escape : Escape) (text : List Char) (pending : Pending) (place : Place) :
    List Char → Option Scanned
  | [] => Option.none
  | c :: rest =>
    let next := place.past c
    match escape with
    | .code left value =>
      match hexDigit? c with
      | Option.none => Option.none
      | some digit =>
        let value := value * 16 + digit
        match left with
        | 0 => Option.none
        | 1 =>
          if isCode value then doubleQuotedFrom .none (Char.ofNat value :: text) {} next rest
          else Option.none
        | left + 1 => doubleQuotedFrom (.code left value) text {} next rest
    | .started =>
      if isBreak c then
        doubleQuotedFrom .none text { lineEnded := true } next rest
      else
        match escaped? c, codeLength? c with
        | some d, _ => doubleQuotedFrom .none (d :: text) {} next rest
        | Option.none, some length => doubleQuotedFrom (.code length 0) text {} next rest
        | Option.none, Option.none => Option.none
    | .none =>
      if isBreak c then doubleQuotedFrom .none text (pending.addBreak c) next rest
      else if isBlank c then doubleQuotedFrom .none text (pending.addBlank c) next rest
      else if Cursor.atDocumentMark ⟨c :: rest, place⟩ then Option.none
      else
        let text := pending.folded.reverse ++ text
        if c = '"' then some { text := text.reverse, cursor := ⟨rest, next⟩ }
        else if c = '\\' then doubleQuotedFrom .started text {} next rest
        else doubleQuotedFrom .none (c :: text) {} next rest

/-- Reads a quoted scalar, from its opening quote on. -/
def quoted (single : Bool) (cursor : Cursor) : Option Scanned :=
  let inside := cursor.drop 1
  if single then singleQuotedFrom [] {} inside.place inside.rest
  else doubleQuotedFrom .none [] {} inside.place inside.rest

/-! ### Block scalars -/

/-- What to do with the line ends at the end of a block scalar. -/
inductive Chomp where
  /-- Keep none. -/
  | strip
  /-- Keep one. -/
  | clip
  /-- Keep all. -/
  | keep
  deriving DecidableEq, Repr

/-- The head of a block scalar: how it ends, and how far it is indented if that is given. -/
structure BlockHead where
  /-- How it ends. -/
  chomp : Chomp := .clip
  /-- The given indentation. -/
  increment : Option Nat := none

/-- The indentation that a digit gives; fails on zero. -/
def increment? (c : Char) : Option (Option Nat) :=
  if c = '0' then none else some (some (c.toNat - 48))

/-- Reads the signs after the start of a block scalar. -/
def blockHead (cursor : Cursor) : Option (BlockHead × Cursor) :=
  let chompOf (c : Char) : Chomp := if c = '+' then .keep else .strip
  match cursor.rest with
  | a :: b :: _ =>
    if a = '+' ∨ a = '-' then
      if b.isDigit then (increment? b).map fun n => (⟨chompOf a, n⟩, cursor.drop 2)
      else some (⟨chompOf a, none⟩, cursor.drop 1)
    else if a.isDigit then
      (increment? a).map fun n =>
        if b = '+' ∨ b = '-' then (⟨chompOf b, n⟩, cursor.drop 2) else (⟨.clip, n⟩, cursor.drop 1)
    else some ({}, cursor)
  | [a] =>
    if a = '+' ∨ a = '-' then some (⟨chompOf a, none⟩, cursor.drop 1)
    else if a.isDigit then (increment? a).map fun n => (⟨.clip, n⟩, cursor.drop 1)
    else some ({}, cursor)
  | [] => some ({}, cursor)

/-- The state of reading a block scalar. -/
structure BlockState where
  /-- What was read, the latest first. -/
  text : List Char := []
  /-- The end of the last line. -/
  lineEnd : List Char := []
  /-- The ends of the empty lines after it, the latest first. -/
  breaks : List Char := []
  /-- Whether the last line began with a blank. -/
  wasBlank : Bool := false
  /-- The indentation, once it is known. -/
  indent : Option Nat := none
  /-- The widest indentation of the empty lines seen before it is known. -/
  widest : Nat := 0
  /-- Whether a line is being read. -/
  inLine : Bool := false

namespace BlockState

/-- What ends the scalar. -/
def finish (s : BlockState) (chomp : Chomp) : List Char :=
  let text := s.text.reverse
  match chomp with
  | .strip => text
  | .clip => text ++ s.lineEnd
  | .keep => text ++ s.lineEnd ++ s.breaks.reverse

/-- Begins a line with a character: the ends of the lines before it are written or folded. -/
def beginLine (s : BlockState) (folded : Bool) (c : Char) : BlockState :=
  let blank := isBlank c
  let before :=
    if folded && !s.wasBlank && !blank && s.lineEnd == ['\n'] then
      if s.breaks.isEmpty then [' '] else []
    else s.lineEnd
  { s with
    text := c :: (s.breaks ++ before.reverse ++ s.text)
    lineEnd := []
    breaks := []
    wasBlank := blank
    inLine := true }

end BlockState

/-- Reads on in a block scalar. `least` is the least indentation it may have. -/
def blockFrom (folded : Bool) (chomp : Chomp) (least : Nat) (s : BlockState) (place : Place) :
    List Char → Option Scanned
  | [] => some { text := s.finish chomp, cursor := ⟨[], place⟩ }
  | c :: rest =>
    let next := place.past c
    if s.inLine then
      if isBreak c then
        blockFrom folded chomp least { s with lineEnd := [c], inLine := false } next rest
      else blockFrom folded chomp least { s with text := c :: s.text } next rest
    else
      let inIndent : Bool := match s.indent with
        | none => true
        | some n => place.column < n
      if inIndent && c == ' ' then blockFrom folded chomp least s next rest
      else if inIndent && c == '\t' then none
      else
        let widest := max s.widest place.column
        if isBreak c then
          blockFrom folded chomp least { s with breaks := c :: s.breaks, widest := widest } next rest
        else
          let indent := s.indent.getD (max widest least)
          if place.column = indent then
            blockFrom folded chomp least
              (BlockState.beginLine { s with indent := some indent } folded c) next rest
          else some { text := s.finish chomp, cursor := ⟨c :: rest, place⟩ }

/-- Reads a block scalar, from its sign on; `indent` is the indentation around it. -/
def block (folded : Bool) (indent : Int) (cursor : Cursor) : Option Scanned :=
  match blockHead (cursor.drop 1) with
  | none => none
  | some (head, cursor) =>
    let (_, cursor) := cursor.span isBlank
    let (_, cursor) := if cursor.rest.head? = some '#' then cursor.span (!isBreak ·) else ([], cursor)
    let least := (max (indent + 1) 1).toNat
    let given := head.increment.map fun n => (max indent 0).toNat + n
    let start : BlockState := { indent := given }
    match cursor.rest with
    | [] => some { text := [], cursor := cursor }
    | c :: rest =>
      if isBreak c then blockFrom folded head.chomp least start (cursor.place.past c) rest
      else none

end Yaml

end Phrasebook
