import Phrasebook.Text

/-!
# Texts in JSON

A text as a string of JSON that may also stand in a web page: besides what has to be escaped, so are
the signs of markup and the two Unicode line ends. A byte that is no character is written as the
replacement character.
-/

namespace Phrasebook

namespace Text

/-- One character of a string. -/
def jsonChar (c : Char) : Text :=
  let n := c.toNat
  if c = '"' ∨ c = '\\' then [0x5C, n.toUInt8]
  else if n = 8 then ofString "\\b"
  else if n = 12 then ofString "\\f"
  else if n = 10 then ofString "\\n"
  else if n = 13 then ofString "\\r"
  else if n = 9 then ofString "\\t"
  else if n < 0x20 ∨ c = '<' ∨ c = '>' ∨ c = '&' ∨ n = 0x2028 ∨ n = 0x2029 then
    ofString "\\u" ++ hex 4 n
  else encodeChar c

/-- The text as a string. -/
def json (t : Text) : Text :=
  let part : Char × Nat → Text := fun (c, width) =>
    if c = replacement ∧ width = 1 then ofString "\\ufffd" else jsonChar c
  0x22 :: (t.frontList.flatMap part ++ [0x22])

/-- Texts as a list of strings. -/
def jsonList (ts : List Text) : Text :=
  0x5B :: (join [0x2C] (ts.map json) ++ [0x5D])

end Text

end Phrasebook
