import Phrasebook.Text

/-!
# Quoted texts

How a text is shown inside a message: between double quotes, with escapes for what cannot be seen.
`Text.quoted` keeps printable characters of any script and escapes the rest by their code point, or
by their byte where they are no character; `Text.quotedAscii` escapes every byte outside ASCII.
-/

namespace Phrasebook

namespace Text

/-- One character inside quotes. -/
def quotedChar (c : Char) : Text :=
  let n := c.toNat
  if n = 0x22 ∨ n = 0x5C then [0x5C, n.toUInt8]
  else if Unicode.isPrintable c then encodeChar c
  else if n = 7 then ofString "\\a"
  else if n = 8 then ofString "\\b"
  else if n = 12 then ofString "\\f"
  else if n = 10 then ofString "\\n"
  else if n = 13 then ofString "\\r"
  else if n = 9 then ofString "\\t"
  else if n = 11 then ofString "\\v"
  else if n < 0x20 ∨ n = 0x7F then ofString "\\x" ++ hex 2 n
  else if n < 0x10000 then ofString "\\u" ++ hex 4 n
  else ofString "\\U" ++ hex 8 n

/-- The characters of a text inside quotes; a byte that is no character is escaped as a byte. -/
def quotedBody (t : Text) : Text :=
  match _h : t.front? with
  | none => []
  | some (c, w) =>
    (if c = replacement ∧ w = 1 then ofString "\\x" ++ (t.take 1).flatMap hexByte
      else quotedChar c) ++ quotedBody (t.drop w)
termination_by t.length
decreasing_by
  have := front?_width _h
  simp only [List.length_drop]
  omega

/-- The text between quotes. -/
def quoted (t : Text) : Text :=
  0x22 :: (t.quotedBody ++ [0x22])

/-- A list of texts, each between quotes, in brackets and parted by blanks. -/
def quotedList (ts : List Text) : Text :=
  0x5B :: (join [0x20] (ts.map quoted) ++ [0x5D])

/-- The text between quotes, in ASCII. -/
def quotedAscii (t : Text) : Text :=
  let byte (b : UInt8) : Text :=
    if b.toNat ≥ 0x80 ∨ b.toNat < 0x20 then ofString "\\x" ++ hexByte b
    else if b = 0x22 ∨ b = 0x5C then [0x5C, b]
    else [b]
  0x22 :: (t.flatMap byte ++ [0x22])

end Text

end Phrasebook
