import Phrasebook.Config.Record
import Phrasebook.Toml.Fields
import Phrasebook.Toml.Printer
import Phrasebook.Yaml.Fields
import Phrasebook.Yaml.Printer

/-!
# Configurations in definition files

A configuration is written to and read from a text by way of its record. How records are written and
read is an *encoding*; the program has one for each format.
-/

namespace Phrasebook

namespace Config

/-- Why a text holds no configuration. -/
inductive DecodeError where
  /-- The text is malformed in its format, or has values that do not fit. -/
  | malformed
  /-- The text has a value that there is no way to store. -/
  | unstorable
  deriving DecidableEq, Repr

/-- A way of writing records as texts and of reading them back. -/
structure Encoding where
  /-- The text of a record. -/
  write : Record → Text
  /-- The record that a text holds, its fields being of these shapes. -/
  read : List (Text × Shape) → Text → Except DecodeError Record

namespace Encoding

/-- The encoding of a format. -/
def ofFormat : Format → Encoding
  | .yaml =>
    { write := Yaml.write
      read := fun fields t =>
        match Yaml.record? fields t with
        | some r => .ok r
        | none => .error .malformed }
  | .toml =>
    { write := Toml.write
      read := fun fields t =>
        match Toml.record fields t with
        | .ok r => .ok r
        | .error .malformed => .error .malformed
        | .error .unstorable => .error .unstorable }

/-- The configuration that a text holds. -/
def decode (encoding : Encoding) (t : Text) : Except DecodeError Config :=
  (encoding.read Config.fields t).map ofRecord

/-- The text of a configuration. -/
def encode (encoding : Encoding) (c : Config) : Text :=
  encoding.write c.toRecord

end Encoding

/-- The configuration that a text in a format holds. -/
def decode (format : Format) (t : Text) : Except DecodeError Config :=
  (Encoding.ofFormat format).decode t

/-- The text of a configuration in a format. -/
def encode (format : Format) (c : Config) : Text :=
  (Encoding.ofFormat format).encode c

end Config

end Phrasebook
