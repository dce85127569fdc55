import Phrasebook.Record
import Phrasebook.Toml.Quoted

/-!
# Writing TOML

The fields of a record are written as entries, and lists of records after them as arrays of tables,
each table under a header of its own. A text is written in single quotes unless it has a character
that may not stand there.
-/

namespace Phrasebook

namespace Toml

/-- A byte as two upper-case hexadecimal digits. -/
def upperHexByte (b : UInt8) : Text :=
  let digit (n : Nat) : UInt8 := if n < 10 then (48 + n).toUInt8 else (55 + n).toUInt8
  [digit (b.toNat / 16), digit (b.toNat % 16)]

/-- A byte as it is written in double quotes. -/
def escape (b : UInt8) : Text :=
  match [(0x5C, 0x5C), (0x22, 0x22), (0x08, 0x62), (0x0C, 0x66), (0x0A, 0x6E), (0x0D, 0x72),
    (0x09, 0x74)].lookup b with
  | some letter => [0x5C, letter]
  | none => if isControl b then Text.ofString "\\u00" ++ upperHexByte b else [b]

/-- A text in quotes. -/
def quotedText (t : Text) : Text :=
  if t.any fun b => b == singleQuote || b == 0x0A || b == 0x0D || isControl b then
    doubleQuote :: (t.flatMap escape ++ [doubleQuote])
  else singleQuote :: (t ++ [singleQuote])

/-- A value within a line. -/
def inlineValue : Item → Text
  | .text t => quotedText t
  | .integer n => Text.ofInt n
  | .boolean b => Text.ofString (if b then "true" else "false")
  | .list items =>
    0x5B :: (Text.join (Text.ofString ", ") (items.map inlineValue) ++ [0x5D])
  | .record _ => Text.ofString "\x7b\x7d"

/-- Whether a value is written under headers: a list of records. -/
def needsHeaders : Item → Bool
  | .list (.record _ :: _) => true
  | _ => false

/-- The entries of a record that are written within lines. -/
def entries (r : Record) : Text :=
  (r.filter fun field => !needsHeaders field.2).flatMap fun (name, item) =>
    name ++ Text.ofString " = " ++ inlineValue item ++ [0x0A]

/-- A table of an array, under its header. -/
def tableOf (name : Text) (item : Item) : Text :=
  match item with
  | .record r => Text.ofString "\n[[" ++ name ++ Text.ofString "]]\n" ++ entries r
  | _ => []

/-- The tables of a record, array by array. -/
def tables (r : Record) : Text :=
  (r.filter fun field => needsHeaders field.2).flatMap fun (name, item) =>
    (item.list?.getD []).flatMap (tableOf name)

/-- A record as a document. -/
def write (r : Record) : Text :=
  entries r ++ tables r

end Toml

end Phrasebook
