import Phrasebook.Text

/-!
# The characters of a YAML stream

A stream is UTF-8, or UTF-16 when it begins with that byte order mark. All ways of ending a line but
the two Unicode separators are read as a newline. Control characters are refused.
-/

namespace Phrasebook

namespace Yaml

/-- The byte order mark. -/
def byteOrderMark : Char := Char.ofNat 0xFEFF

/-- Whether a character may stand in a stream. -/
def isAllowed (c : Char) : Bool :=
  let n := c.toNat
  n == 0x09 || n == 0x0A || n == 0x0D || (0x20 ≤ n && n ≤ 0x7E) || n == 0x85 ||
    (0xA0 ≤ n && n ≤ 0xFFFD) || 0x10000 ≤ n

/-- The characters that UTF-16 units spell. -/
def ofUnits : List Nat → Option (List Char)
  | [] => some []
  | a :: rest =>
    if a < 0xD800 ∨ 0xE000 ≤ a then (ofUnits rest).map (Char.ofNat a :: ·)
    else
      match rest with
      | b :: rest =>
        if a < 0xDC00 ∧ 0xDC00 ≤ b ∧ b < 0xE000 then
          (ofUnits rest).map (Char.ofNat (0x10000 + (a - 0xD800) * 0x400 + (b - 0xDC00)) :: ·)
        else none
      | [] => none

/-- The units of pairs of bytes, the first byte of a pair being the low one or the high one. -/
def units (lowFirst : Bool) : Text → Option (List Nat)
  | [] => some []
  | [_] => none
  | a :: b :: rest =>
    let unit := if lowFirst then a.toNat + b.toNat * 256 else a.toNat * 256 + b.toNat
    (units lowFirst rest).map (unit :: ·)

/-- The characters of a text in the encoding its first bytes show. -/
def decode (t : Text) : Option (List Char) :=
  match t with
  | 0xFF :: 0xFE :: rest => (units true rest).bind ofUnits
  | 0xFE :: 0xFF :: rest => (units false rest).bind ofUnits
  | 0xEF :: 0xBB :: 0xBF :: rest => if Text.isValid rest then some (Text.chars rest) else none
  | _ => if t.isValid then some t.chars else none

/-- The characters with every line end as a newline; `afterReturn` says that a carriage return,
which was written as a newline, stands before them. -/
def joinLineEnds (afterReturn : Bool) : List Char → List Char
  | [] => []
  | c :: rest =>
    if c = '\r' then '\n' :: joinLineEnds true rest
    else if c = '\n' ∧ afterReturn then joinLineEnds false rest
    else if c.toNat = 0x85 then '\n' :: joinLineEnds false rest
    else c :: joinLineEnds false rest

/-- The characters of a stream, if it may be read at all. -/
def stream (t : Text) : Option (List Char) :=
  match decode t with
  | none => none
  | some cs => if cs.all isAllowed then some (joinLineEnds false cs) else none

/-! ### Classes of characters -/

/-- Whether a character ends a line. -/
def isBreak (c : Char) : Bool :=
  c == '\n' || c.toNat == 0x2028 || c.toNat == 0x2029

/-- Whether a character is a blank. -/
def isBlank (c : Char) : Bool :=
  c == ' ' || c == '\t'

/-- Whether there is nothing visible at the start of what is left of a line. -/
def endsWord : List Char → Bool
  | [] => true
  | c :: _ => isBlank c || isBreak c

/-- Whether a character may stand in the name of an anchor or a handle. -/
def isNameChar (c : Char) : Bool :=
  c.isAlphanum || c == '_' || c == '-'

/-- A place in a stream. -/
structure Place where
  /-- The characters before it. -/
  index : Nat := 0
  /-- The lines before it. -/
  line : Nat := 0
  /-- The characters before it on its line. -/
  column : Nat := 0
  deriving DecidableEq, Repr

namespace Place

/-- The place after a character. -/
def past (p : Place) (c : Char) : Place :=
  if isBreak c then ⟨p.index + 1, p.line + 1, 0⟩ else ⟨p.index + 1, p.line, p.column + 1⟩

/-- The place after characters. -/
def pastAll (p : Place) (cs : List Char) : Place :=
  cs.foldl past p

end Place

/-- What is left of a stream, and where it begins. -/
structure Cursor where
  /-- The characters left. -/
  rest : List Char
  /-- Where they begin. -/
  place : Place
  deriving DecidableEq, Repr

namespace Cursor

/-- The cursor after some characters. -/
def drop (c : Cursor) (n : Nat) : Cursor :=
  ⟨c.rest.drop n, c.place.pastAll (c.rest.take n)⟩

/-- The cursor after the characters of a class, and those characters. -/
def span (c : Cursor) (p : Char → Bool) : List Char × Cursor :=
  let taken := c.rest.takeWhile p
  (taken, c.drop taken.length)

/-- Whether a line that begins here marks the start or the end of a document. -/
def atDocumentMark (c : Cursor) : Bool :=
  c.place.column == 0 &&
    ((c.rest.take 3 == ['-', '-', '-'] || c.rest.take 3 == ['.', '.', '.']) &&
      endsWord (c.rest.drop 3))

end Cursor

end Yaml

end Phrasebook
