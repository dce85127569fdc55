import Phrasebook.Number.Duration
import Phrasebook.Pattern.Error
import Phrasebook.Registry

/-!
# Errors of configurations

Building a book reports all faulty types, or else all faulty phrases, one after the other.
-/

namespace Phrasebook

namespace Book

/-- What is wrong with the definition of a type. -/
inductive TypeFault where
  /-- The registry refuses it. -/
  | refused (error : Registry.Error)
  /-- Its constants are words, and there are none. -/
  | noWords
  /-- There is no such form of constants. -/
  | unknownForm (name : Text)
  deriving DecidableEq, Repr

/-- What is wrong with the definition of a phrase. -/
inductive PhraseFault where
  /-- It has no name. -/
  | missingName
  /-- It has no patterns. -/
  | noPatterns
  /-- It is an effect and names a type. -/
  | effectReturns
  /-- It is an expression, and its type is not registered. -/
  | unknownReturn (name : Text)
  /-- There is no such kind. -/
  | unknownKind (name : Text)
  /-- These patterns cannot be compiled. -/
  | badPatterns (errors : List Pattern.CompileError)
  /-- An earlier phrase has the same name. -/
  | declaredTwice
  deriving DecidableEq, Repr

/-- Why there is no book. -/
inductive BuildError where
  /-- There is no configuration. -/
  | noConfig
  /-- The time for regular expressions is no duration. -/
  | badTimeout (error : Duration.Error)
  /-- A built-in type is refused. -/
  | builtin (error : Registry.Error)
  /-- These types are faulty, each with its name. -/
  | types (faults : List (Text × TypeFault))
  /-- These phrases are faulty, each with its name. -/
  | phrases (faults : List (Text × PhraseFault))
  deriving DecidableEq, Repr

/-- The words for a definition that makes no sense. -/
def invalidDefinition : Text := Text.ofString "invalid definition: "

/-- Lines put together. -/
def lines (texts : List Text) : Text :=
  Text.join [0x0A] texts

namespace TypeFault

/-- The fault in words. -/
def message : TypeFault → Text
  | .refused error => error.message
  | .noWords => invalidDefinition ++ Text.ofString "word literal without values"
  | .unknownForm name => invalidDefinition ++ Text.ofString "literal " ++ name.quoted

end TypeFault

namespace PhraseFault

/-- The fault in words. -/
def message : PhraseFault → Text
  | .missingName => invalidDefinition ++ Text.ofString "missing name"
  | .noPatterns => invalidDefinition ++ Text.ofString "no patterns"
  | .effectReturns => invalidDefinition ++ Text.ofString "an effect returns nothing"
  | .unknownReturn name =>
    Pattern.Cause.unknownType.message ++ Text.ofString ": return type " ++ name.quoted
  | .unknownKind name => invalidDefinition ++ Text.ofString "kind " ++ name.quoted
  | .badPatterns errors => lines (errors.map Pattern.CompileError.message)
  | .declaredTwice => invalidDefinition ++ Text.ofString "declared twice"

end PhraseFault

namespace BuildError

/-- The error in words, a line for each fault. -/
def message : BuildError → Text
  | .noConfig => invalidDefinition ++ Text.ofString "no configuration"
  | .badTimeout error => invalidDefinition ++ Text.ofString "regex_timeout: " ++ error.message
  | .builtin error => error.message
  | .types faults =>
    lines (faults.map fun (name, fault) =>
      Text.ofString "type " ++ name.quoted ++ Text.ofString ": " ++ fault.message)
  | .phrases faults =>
    lines (faults.map fun (name, fault) =>
      Text.ofString "syntax " ++ name.quoted ++ Text.ofString ": " ++ fault.message)

end BuildError

end Book

end Phrasebook
