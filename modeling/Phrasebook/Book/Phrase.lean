import Phrasebook.Literal
import Phrasebook.Match

/-!
# Phrases and what inputs parse as

A phrase is a named set of patterns. An effect stands for a whole input; an expression gives a value
of a type and so may fill the slots of other phrases. The value of a slot is a literal or the parse
of an expression, whose own slots have values in turn.
-/

namespace Phrasebook

/-- The kinds of phrases. -/
inductive PhraseKind where
  /-- It stands for a whole input. -/
  | effect
  /-- It gives a value. -/
  | expression
  deriving DecidableEq, Repr

namespace PhraseKind

/-- The kind's name. -/
def toText : PhraseKind → Text
  | .effect => Text.ofString "effect"
  | .expression => Text.ofString "expression"

end PhraseKind

/-- A phrase with its compiled patterns. -/
structure Phrase where
  /-- Its name. -/
  name : Text
  /-- Its kind. -/
  kind : PhraseKind
  /-- The type of the values it gives. -/
  returns : Option ValueType
  /-- The patterns as written. -/
  sources : List Text
  /-- The patterns compiled, in the same order. -/
  patterns : List Pattern

mutual

/-- The value of a slot. -/
inductive Value where
  /-- A value made by a resolver of its own. -/
  | scalar (s : Scalar)
  /-- A constant of the input. -/
  | literal (l : Literal)
  /-- An expression. -/
  | expression (p : Parse)

/-- What an input parses as. -/
structure Parse where
  /-- The phrase. -/
  phrase : Phrase
  /-- Which of its patterns matched. -/
  index : Nat
  /-- What the match collected. -/
  outcome : Outcome Value

end

mutual

/-- A value as reports show it: an expression by its name, with its own values as arguments. -/
def Value.describe : Value → Text
  | .scalar s => s.toText
  | .literal l => l.describe
  | .expression p => p.describe

/-- A parse as reports show it. -/
def Parse.describe : Parse → Text
  | ⟨phrase, _, outcome⟩ =>
    phrase.name ++ [0x28] ++ Text.join [0x2C, 0x20] outcome.describeValues ++ [0x29]

/-- The values of an outcome as reports show them. -/
def Outcome.describeValues : Outcome Value → List Text
  | ⟨_, _, values, _⟩ => describeSlots values

/-- The values of slots as reports show them; an empty slot is shown as `none`. -/
def describeSlots : List (Option Value) → List Text
  | [] => []
  | none :: rest => Text.ofString "none" :: describeSlots rest
  | some value :: rest => value.describe :: describeSlots rest

end

/-- The value of a slot as reports show it. -/
def describeSlot : Option Value → Text
  | none => Text.ofString "none"
  | some value => value.describe

end Phrasebook
