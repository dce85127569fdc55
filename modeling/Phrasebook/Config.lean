import Phrasebook.Text.Quoted

/-!
# Configurations

The contents of a definition file: value types, phrases with their patterns, and cases that say what
inputs are expected to parse as.
-/

namespace Phrasebook

/-- The definition of a value type. -/
structure TypeDefinition where
  /-- Its name. -/
  name : Text := []
  /-- The regular expression for the spellings of its name; empty for the name with an optional
  plural "s". -/
  pattern : Text := []
  /-- How its constants are written: `number`, `integer`, `string`, `boolean`, `word`, or empty for
  a type without constants. -/
  literal : Text := []
  /-- The words that are its constants. -/
  values : List Text := []
  deriving DecidableEq, Repr

/-- The definition of a phrase. -/
structure PhraseDefinition where
  /-- Its name. -/
  name : Text := []
  /-- Its kind: `effect` or `expression`. -/
  kind : Text := []
  /-- The type an expression gives. -/
  returns : Text := []
  /-- The patterns that spell it. -/
  patterns : List Text := []
  deriving DecidableEq, Repr

/-- An input with the parse that is expected of it. -/
structure Case where
  /-- The input. -/
  input : Text := []
  /-- The name of the phrase it must parse as; empty when it must not parse. -/
  expect : Text := []
  /-- The mark it must have, if any is asked for. -/
  mark : Option Int := none
  /-- The values it must have, as reports show them, if they are asked for. -/
  values : Option (List Text) := none
  deriving DecidableEq, Repr

/-- The contents of a definition file. -/
structure Config where
  /-- The name of the book. -/
  name : Text := []
  /-- Whether the case of letters matters. -/
  caseSensitive : Bool := false
  /-- The time a regular expression may take, as a duration; empty for any time. -/
  regexTimeout : Text := []
  /-- How deeply expressions may nest; the usual bound if not positive. -/
  maxDepth : Int := 0
  /-- The value types. -/
  types : List TypeDefinition := []
  /-- The phrases. -/
  phrases : List PhraseDefinition := []
  /-- The cases. -/
  cases : List Case := []
  deriving DecidableEq, Repr

namespace Config

/-- How deeply expressions may nest unless a configuration says otherwise. -/
def usualDepth : Nat := 8

/-- The configuration to start from. -/
def starter : Config where
  name := Text.ofString "skpat"
  maxDepth := usualDepth
  types :=
    [{ name := Text.ofString "direction"
       pattern := Text.ofString "direction(?<plural>s)?"
       literal := Text.ofString "word"
       values := ["north", "south", "east", "west"].map Text.ofString }]
  phrases :=
    [{ name := Text.ofString "broadcast"
       kind := Text.ofString "effect"
       patterns := ["broadcast %texts%", "(say|shout) %text%"].map Text.ofString },
     { name := Text.ofString "move"
       kind := Text.ofString "effect"
       patterns := ["move [1¦quickly] %direction% [by %-number%]"].map Text.ofString },
     { name := Text.ofString "sum"
       kind := Text.ofString "expression"
       returns := Text.ofString "number"
       patterns := ["(sum|total) of %numbers%", "%number% plus %number%"].map Text.ofString }]
  cases :=
    [{ input := Text.ofString "broadcast \"hello\" and \"bye\""
       expect := Text.ofString "broadcast"
       values := some [Text.ofString "[hello bye]"] },
     { input := Text.ofString "move quickly north"
       expect := Text.ofString "move"
       mark := some 1
       values := some [Text.ofString "north"] },
     { input := Text.ofString "move west by 1 plus 2"
       expect := Text.ofString "move"
       values := some [Text.ofString "west", Text.ofString "sum(1, 2)"] },
     { input := Text.ofString "jump north" }]

end Config

/-- The encodings of definition files. -/
inductive Format where
  /-- YAML. -/
  | yaml
  /-- TOML. -/
  | toml
  deriving DecidableEq, Repr

namespace Format

/-- The name of the format. -/
def name : Format → Text
  | .yaml => Text.ofString "yaml"
  | .toml => Text.ofString "toml"

/-- Why there is no format. -/
inductive Error where
  /-- The file has no extension that stands for one. -/
  | unknownExtension (path : Text)
  /-- There is none of this name. -/
  | unknownName (name : Text)
  deriving DecidableEq, Repr

namespace Error

/-- The error in words. -/
def message : Error → Text
  | .unknownExtension path => Text.ofString "unknown definition file format: " ++ path
  | .unknownName name => Text.ofString "unknown definition file format: " ++ name.quoted

end Error

/-- The extension of a path: its last part from the last point on. -/
def extension (path : Text) : Text :=
  let reversed := (path.reverse.takeWhile (· != 0x2F))
  if reversed.contains 0x2E then (reversed.takeWhile (· != 0x2E) ++ [0x2E]).reverse else []

/-- The format that an extension stands for, in letters of any case. -/
def ofExtension? (extension : Text) : Option Format :=
  let lower := extension.lower
  if lower = Text.ofString ".yaml" ∨ lower = Text.ofString ".yml" then some .yaml
  else if lower = Text.ofString ".toml" then some .toml
  else none

/-- The format of a file, by the extension of its path. -/
def ofPath (path : Text) : Except Error Format :=
  match ofExtension? (extension path) with
  | some format => .ok format
  | none => .error (.unknownExtension path)

/-- The format of a name. -/
def ofName (name : Text) : Except Error Format :=
  if name = Format.yaml.name then .ok .yaml
  else if name = Format.toml.name then .ok .toml
  else .error (.unknownName name)

end Format

end Phrasebook
