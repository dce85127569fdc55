import Phrasebook.Text

/-!
# Values and expressions of TOML

A document is a list of expressions: an entry sets a key to a value, and a header says which table
the entries after it belong to. Numbers and dates are kept as they are written; whether they are
well formed is asked only where they are used.
-/

namespace Phrasebook

namespace Toml

/-- The forms of dates and times. -/
inductive MomentForm where
  /-- A date. -/
  | date
  /-- A time of day. -/
  | time
  /-- A date with a time of day. -/
  | dateTime
  /-- A date with a time of day and a time zone. -/
  | zoned
  deriving DecidableEq, Repr

/-- A value. -/
inductive Value where
  /-- A text. -/
  | text (t : Text)
  /-- A truth value. -/
  | boolean (b : Bool)
  /-- An integer, as it is written. -/
  | integer (written : Text)
  /-- A number with a point or an exponent. -/
  | float
  /-- A date or time, as it is written. -/
  | moment (form : MomentForm) (written : Text)
  /-- An array of values. -/
  | array (items : List Value)
  /-- A table within a line: keys with values. -/
  | table (entries : List (List Text × Value))
  deriving Repr

/-- A key: one or more names, each within the table of the one before. -/
abbrev Key := List Text

/-- An expression. -/
inductive Expression where
  /-- Sets a key. -/
  | entry (key : Key) (value : Value)
  /-- Begins a table. -/
  | table (key : Key)
  /-- Begins a new table at the end of an array of tables. -/
  | arrayTable (key : Key)
  deriving Repr

end Toml

end Phrasebook
