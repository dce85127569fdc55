import Phrasebook.Yaml.Scalar
import Phrasebook.Yaml.Token

/-!
# Reading tokens

A stream is read from left to right. The lexer keeps the indentation of the mappings and sequences
that layout has opened, and for each level of brackets the place where a key may have begun: when a
colon follows on the same line, the token of the key is inserted there. It also knows whether a key
may begin at all, which is so at the start of a line and after the signs that open an entry.

Every step reads at least one character, so there are no more steps than characters.
-/

namespace Phrasebook

namespace Yaml

/-- A place where a key may have begun. -/
structure PossibleKey where
  /-- Whether there has to be a key. -/
  required : Bool
  /-- The number of tokens before it. -/
  number : Nat
  /-- Where it begins. -/
  place : Place

/-- The state of reading tokens. -/
structure Lexer where
  /-- What is left to read. -/
  cursor : Cursor
  /-- The tokens read. -/
  tokens : List Token := []
  /-- The indentation of the innermost block. -/
  indent : Int := -1
  /-- The indentations around it. -/
  indents : List Int := []
  /-- Whether a key may begin here. -/
  keyAllowed : Bool := true
  /-- The keys that may have begun outside brackets. -/
  outerKey : Option PossibleKey := none
  /-- The keys that may have begun inside each open bracket, the innermost first. -/
  innerKeys : List (Option PossibleKey) := []

namespace Lexer

/-- Whether brackets are open. -/
def inFlow (s : Lexer) : Bool :=
  !s.innerKeys.isEmpty

/-- The column of what is left. -/
def column (s : Lexer) : Nat :=
  s.cursor.place.column

/-- Adds a token. -/
def push (s : Lexer) (t : Token) : Lexer :=
  { s with tokens := s.tokens ++ [t] }

/-- Inserts a token after so many others. -/
def insert (s : Lexer) (number : Nat) (t : Token) : Lexer :=
  { s with tokens := s.tokens.take number ++ t :: s.tokens.drop number }

/-- Passes some characters. -/
def skip (s : Lexer) (n : Nat) : Lexer :=
  { s with cursor := s.cursor.drop n }

/-! ### Keys -/

/-- The key that may have begun at the present level. -/
def possibleKey (s : Lexer) : Option PossibleKey :=
  match s.innerKeys with
  | key :: _ => key
  | [] => s.outerKey

/-- Sets the key that may have begun at the present level. -/
def setKey (s : Lexer) (key : Option PossibleKey) : Lexer :=
  match s.innerKeys with
  | _ :: rest => { s with innerKeys := key :: rest }
  | [] => { s with outerKey := key }

/-- Gives up the key that may have begun; fails if there has to be one. -/
def dropKey (s : Lexer) : Option Lexer :=
  match s.possibleKey with
  | none => some s
  | some key => if key.required then none else some (s.setKey none)

/-- Notes that a key may begin here, if it may. -/
def saveKey (s : Lexer) : Option Lexer :=
  if s.keyAllowed then
    s.dropKey.map fun s =>
      s.setKey (some ⟨!s.inFlow && s.indent == s.column, s.tokens.length, s.cursor.place⟩)
  else some s

/-- Whether a colon here may still belong to a key: it stands on the same line and not too far
behind. -/
def reaches (s : Lexer) (key : PossibleKey) : Bool :=
  key.place.line == s.cursor.place.line && s.cursor.place.index ≤ key.place.index + 1024

/-! ### Layout -/

/-- Ends the blocks that are indented further than a column. -/
def closeBlocks (column : Int) (s : Lexer) : List Int → Lexer
  | [] => s
  | outer :: rest =>
    if s.indent > column then
      closeBlocks column { s.push .blockEnd with indent := outer, indents := rest } rest
    else s

/-- Ends the blocks that are indented further than a column, outside brackets. -/
def unroll (s : Lexer) (column : Int) : Lexer :=
  if s.inFlow then s else closeBlocks column s s.indents

/-- Begins a block at a column, after so many tokens, if it is indented further than the blocks that
are open. -/
def roll (s : Lexer) (column : Nat) (number : Nat) (t : Token) : Lexer :=
  if s.inFlow ∨ (column : Int) ≤ s.indent then s
  else { s.insert number t with indent := column, indents := s.indent :: s.indents }

/-! ### White space and comments -/

/-- Whether a comment begins after white space and empty lines. -/
def commentAhead (cs : List Char) : Bool :=
  (cs.dropWhile fun c => isBlank c || isBreak c).head? == some '#'

/-- Where the reader of white space stands. -/
inductive Gap where
  /-- In white space before a token. -/
  | blank
  /-- In a comment. -/
  | comment
  /-- Between two comments. -/
  | between
  deriving DecidableEq

/-- Passes white space and comments. A tab is no white space where a key may begin, except between
two comments. -/
def passGap (gap : Gap) (s : Lexer) : List Char → Lexer
  | [] => { s with cursor := ⟨[], s.cursor.place⟩ }
  | c :: rest =>
    let place := s.cursor.place
    let here : Lexer := { s with cursor := ⟨c :: rest, place⟩ }
    let past : Lexer := { s with cursor := ⟨rest, place.past c⟩ }
    let pastLine : Lexer := if s.inFlow then past else { past with keyAllowed := true }
    match gap with
    | .comment =>
      if isBreak c then
        passGap (if commentAhead rest then .between else .blank) pastLine rest
      else passGap .comment past rest
    | .between =>
      if c = '#' then passGap .comment past rest
      else if isBreak c then passGap .between pastLine rest
      else passGap .between past rest
    | .blank =>
      if c = byteOrderMark ∧ place.column = 0 then passGap .blank past rest
      else if c = ' ' ∨ (c = '\t' ∧ (s.inFlow ∨ !s.keyAllowed)) then passGap .blank past rest
      else if c = '#' then passGap .comment past rest
      else if isBreak c then passGap .blank pastLine rest
      else here

/-- Passes a comment on the same line. -/
def passLineComment (s : Lexer) : Lexer :=
  let after := s.cursor.rest.dropWhile isBlank
  if after.head? = some '#' then
    { s with cursor := (s.cursor.drop (s.cursor.rest.length - after.length)).span (!isBreak ·) |>.2 }
  else s

/-! ### Directives, anchors and tags -/

/-- A text of characters. -/
def textOf (cs : List Char) : Text :=
  Text.ofChars cs

/-- A number of one or two digits. -/
def versionNumber (c : Cursor) : Option (Nat × Cursor) :=
  let (digits, c) := c.span Char.isDigit
  if digits.isEmpty ∨ 9 < digits.length then none
  else some (digits.foldl (fun n d => n * 10 + (d.toNat - 48)) 0, c)

/-- Whether a character may stand in a tag. -/
def isTagChar (c : Char) : Bool :=
  isNameChar c ||
    [';', '/', '?', ':', '@', '&', '=', '+', '$', ',', '.', '!', '~', '*', '\'', '(', ')', '[',
      ']'].contains c

/-- The bytes of a tag, with escapes of two hexadecimal digits. -/
def tagBytes : List Char → Option Text
  | [] => some []
  | '%' :: a :: b :: rest =>
    match hexDigit? a, hexDigit? b with
    | some x, some y => (tagBytes rest).map ((x * 16 + y).toUInt8 :: ·)
    | _, _ => none
  | '%' :: _ => none
  | c :: rest => (tagBytes rest).map (Text.encodeChar c ++ ·)

/-- The rest of a tag after its handle. -/
def tagRest (c : Cursor) : Option (Text × Cursor) :=
  let (taken, c) := c.span fun d => isTagChar d || d == '%'
  match tagBytes taken with
  | some bytes => if Text.isValid bytes then some (bytes, c) else none
  | none => none

/-- The handle of a tag: an exclamation mark, or a name between two. -/
def tagHandle (c : Cursor) : Text × Cursor :=
  let (name, after) := (c.drop 1).span isNameChar
  if after.rest.head? = some '!' then (textOf ('!' :: (name ++ ['!'])), after.drop 1)
  else (textOf ('!' :: name), after)

/-- Reads a tag. -/
def readTag (s : Lexer) : Option Lexer :=
  let c := s.cursor
  let read : Option (Text × Text × Cursor) :=
    if (c.rest.drop 1).head? = some '<' then
      match tagRest (c.drop 2) with
      | some (suffix, c) =>
        if suffix.isEmpty ∨ c.rest.head? ≠ some '>' then none else some ([], suffix, c.drop 1)
      | none => none
    else
      let (handle, after) := tagHandle c
      match tagRest after with
      | none => none
      | some (suffix, after) =>
        if 1 < handle.length ∧ handle.getLast? = some 0x21 then
          if suffix.isEmpty then none else some (handle, suffix, after)
        else if 1 < handle.length ∨ ¬ suffix.isEmpty then
          some ([0x21], handle.drop 1 ++ suffix, after)
        else some ([], [0x21], after)
  match read with
  | some (handle, suffix, c) =>
    if endsWord c.rest then some ({ s with cursor := c }.push (.tag handle suffix)) else none
  | none => none

/-- Reads the name of an anchor. -/
def readAnchor (s : Lexer) (isAlias : Bool) : Option Lexer :=
  let (name, c) := (s.cursor.drop 1).span isNameChar
  let ends := endsWord c.rest ||
    match c.rest with
    | d :: _ => ['?', ':', ',', ']', '}', '%', '@', '`'].contains d
    | [] => true
  if name.isEmpty ∨ !ends then none
  else
    some ({ s with cursor := c }.push
      (if isAlias then .alias (textOf name) else .anchor (textOf name)))

/-- Reads a directive, with the line it stands on. -/
def readDirective (s : Lexer) : Option Lexer :=
  let (name, c) := (s.cursor.drop 1).span isNameChar
  let blanks (c : Cursor) : Cursor := (c.span isBlank).2
  let read : Option (Token × Cursor) :=
    if !endsWord c.rest then none
    else if name = ['Y', 'A', 'M', 'L'] then
      match versionNumber (blanks c) with
      | none => none
      | some (major, c) =>
        if c.rest.head? = some '.' then
          (versionNumber (c.drop 1)).map fun (minor, c) => (.version major minor, c)
        else none
    else if name = ['T', 'A', 'G'] then
      let c := blanks c
      if c.rest.head? ≠ some '!' then none
      else
        let (handle, c) := tagHandle c
        if (1 < handle.length ∧ handle.getLast? ≠ some 0x21) ∨ (c.rest.head?.map isBlank) ≠ some true
        then none
        else
          match tagRest (blanks c) with
          | some (start, c) =>
            if start.isEmpty ∨ !endsWord c.rest then none else some (.tagHandle handle start, c)
          | none => none
    else none
  match read with
  | none => none
  | some (t, c) =>
    let c := blanks c
    let c := if c.rest.head? = some '#' then (c.span (!isBreak ·)).2 else c
    match c.rest with
    | [] => some ({ s with cursor := c }.push t)
    | d :: _ => if isBreak d then some ({ s with cursor := c.drop 1 }.push t) else none

/-! ### Steps -/

/-- The end of the stream. -/
def endStream (s : Lexer) : Option Lexer :=
  (s.unroll (-1)).dropKey.map fun s => { s with keyAllowed := false }.push .streamEnd

/-- A sign at the start of a line that begins or ends a document. -/
def documentMark (s : Lexer) (t : Token) : Option Lexer :=
  (s.unroll (-1)).dropKey.map fun s => ({ s with keyAllowed := false }.skip 3).push t

/-- A directive. -/
def directive (s : Lexer) : Option Lexer :=
  (s.unroll (-1)).dropKey.bind fun s => readDirective { s with keyAllowed := false }

/-- An opening bracket. -/
def openFlow (s : Lexer) (t : Token) : Option Lexer :=
  s.saveKey.map fun s =>
    ({ s with innerKeys := none :: s.innerKeys, keyAllowed := true }.skip 1).push t

/-- A closing bracket. -/
def closeFlow (s : Lexer) (t : Token) : Option Lexer :=
  s.dropKey.map fun s =>
    ({ s with innerKeys := s.innerKeys.drop 1, keyAllowed := false }.skip 1).push t

/-- A comma between brackets. -/
def flowEntry (s : Lexer) : Option Lexer :=
  s.dropKey.map fun s => ({ s with keyAllowed := true }.skip 1).push .flowEntry

/-- The dash of an item. -/
def blockEntry (s : Lexer) : Option Lexer :=
  if !s.inFlow ∧ !s.keyAllowed then none
  else
    (s.roll s.column s.tokens.length .blockSequenceStart).dropKey.map fun s =>
      ({ s with keyAllowed := true }.skip 1).push .blockEntry

/-- The question mark of a key. -/
def explicitKey (s : Lexer) : Option Lexer :=
  if !s.inFlow ∧ !s.keyAllowed then none
  else
    (s.roll s.column s.tokens.length .blockMappingStart).dropKey.map fun s =>
      ({ s with keyAllowed := !s.inFlow }.skip 1).push .key

/-- The colon of a value. -/
def valueSign (s : Lexer) : Option Lexer :=
  let plainColon (s : Lexer) : Option Lexer :=
    if !s.inFlow ∧ !s.keyAllowed then none
    else
      let s := s.roll s.column s.tokens.length .blockMappingStart
      some (({ s with keyAllowed := !s.inFlow }.skip 1).push .value)
  match s.possibleKey with
  | none => plainColon s
  | some key =>
    if s.reaches key then
      let s := (s.insert key.number .key).roll key.place.column key.number .blockMappingStart
      some (({ s.setKey none with keyAllowed := false }.skip 1).push .value)
    else if key.required then none
    else plainColon (s.setKey none)

/-- A name or a tag of the node that follows. -/
def property (s : Lexer) (read : Lexer → Option Lexer) : Option Lexer :=
  s.saveKey.bind fun s => read { s with keyAllowed := false }

/-- A scalar that was read. -/
def pushScalar (s : Lexer) (isPlain : Bool) (read : Scanned) : Lexer :=
  { s with cursor := read.cursor }.push (.scalar (textOf read.text) isPlain)

/-- A block scalar. -/
def blockScalar (s : Lexer) (folded : Bool) : Option Lexer :=
  s.dropKey.bind fun s =>
    (block folded s.indent s.cursor).map ({ s with keyAllowed := true }.pushScalar false)

/-- A quoted scalar. -/
def quotedScalar (s : Lexer) (single : Bool) : Option Lexer :=
  s.saveKey.bind fun s =>
    (quoted single s.cursor).map ({ s with keyAllowed := false }.pushScalar false)

/-- A plain scalar. -/
def plainScalar (s : Lexer) : Option Lexer :=
  s.saveKey.bind fun s =>
    (plain s.inFlow (s.indent + 1) s.cursor).map fun read =>
      { s with keyAllowed := read.lineEnded }.pushScalar true read

/-- Signs that begin no plain scalar. -/
def signs : List Char :=
  ['-', '?', ':', ',', '[', ']', '{', '}', '#', '&', '*', '!', '|', '>', '\'', '"', '%', '@', '`']

/-- Whether a plain scalar begins here. -/
def startsPlain (s : Lexer) (c : Char) (rest : List Char) : Bool :=
  (!isBlank c && !isBreak c && !signs.contains c) ||
    (c == '-' && (match rest with | d :: _ => !isBlank d | [] => true)) ||
    (!s.inFlow && (c == '?' || c == ':') && !endsWord rest)

/-- The token that begins with a character. -/
def tokenAt (s : Lexer) (c : Char) (rest : List Char) : Option Lexer :=
  if c = '[' then s.openFlow .flowSequenceStart
  else if c = '{' then s.openFlow .flowMappingStart
  else if c = ']' then s.closeFlow .flowSequenceEnd
  else if c = '}' then s.closeFlow .flowMappingEnd
  else if c = ',' then s.flowEntry
  else if c = '?' ∧ (s.inFlow ∨ endsWord rest) then s.explicitKey
  else if c = ':' ∧ (s.inFlow ∨ endsWord rest) then s.valueSign
  else if c = '*' then s.property (readAnchor · true)
  else if c = '&' then s.property (readAnchor · false)
  else if c = '!' then s.property readTag
  else if c = '|' ∧ !s.inFlow then s.blockScalar false
  else if c = '>' ∧ !s.inFlow then s.blockScalar true
  else if c = '\'' then s.quotedScalar true
  else if c = '"' then s.quotedScalar false
  else if s.startsPlain c rest then s.plainScalar
  else none

/-- Reads the next token; fails when there is none. -/
def step (s : Lexer) : Option Lexer :=
  let s := passGap .blank s s.cursor.rest
  let s := s.unroll s.column
  match s.cursor.rest with
  | [] => s.endStream
  | c :: rest =>
    if s.column = 0 ∧ c = '%' then s.directive
    else if s.cursor.atDocumentMark then
      s.documentMark (if c = '-' then .documentStart else .documentEnd)
    else if c = '-' ∧ endsWord rest then s.blockEntry
    else
      (s.tokenAt c rest).map fun after =>
        if after.cursor.place.line = s.cursor.place.line then after.passLineComment else after

/-- Reads tokens to the end of the stream, in at most so many steps. -/
def run : Nat → Lexer → Tokens
  | 0, s => ⟨s.tokens, true⟩
  | steps + 1, s =>
    match s.step with
    | none => ⟨s.tokens, true⟩
    | some after =>
      if after.tokens.getLast? = some .streamEnd then ⟨after.tokens, false⟩ else run steps after

end Lexer

/-- The tokens of a stream. -/
def Tokens.ofChars (cs : List Char) : Tokens :=
  Lexer.run (cs.length + 1) { cursor := ⟨cs, {}⟩ }

end Yaml

end Phrasebook
