import Phrasebook.Text.Quoted

/-!
# Errors of patterns

Why a pattern cannot be compiled, and where: positions count bytes from the start of the whole
pattern.
-/

namespace Phrasebook

namespace Pattern

/-- What is wrong with a pattern. -/
inductive Cause where
  /-- A group or a slot does not end. -/
  | unclosedGroup
  /-- A regular expression is refused. -/
  | invalidRegex
  /-- A slot is not written as one. -/
  | invalidSlot
  /-- A slot refers to a type that is not registered. -/
  | unknownType
  /-- The pattern ends in a backslash. -/
  | trailingEscape
  deriving DecidableEq, Repr

namespace Cause

/-- The cause in words. -/
def message : Cause → Text
  | .unclosedGroup => Text.ofString "unclosed group"
  | .invalidRegex => Text.ofString "invalid regular expression"
  | .invalidSlot => Text.ofString "invalid slot declaration"
  | .unknownType => Text.ofString "unknown type"
  | .trailingEscape => Text.ofString "backslash at the end of the pattern"

end Cause

/-- What is wrong and where. -/
structure Fault where
  /-- The byte of the pattern. -/
  pos : Nat
  /-- What is wrong. -/
  cause : Cause
  /-- More about it, or nothing. -/
  detail : Text
  deriving DecidableEq, Repr

/-- Why a pattern cannot be compiled. -/
structure CompileError where
  /-- The pattern. -/
  pattern : Text
  /-- What is wrong with it. -/
  fault : Fault
  deriving DecidableEq, Repr

namespace CompileError

/-- The error in words. -/
def message (e : CompileError) : Text :=
  Text.ofString "pattern " ++ e.pattern.quoted ++ Text.ofString ": " ++ e.fault.cause.message ++
    Text.ofString " at index " ++ Text.ofNat e.fault.pos ++
    (if e.fault.detail.isEmpty then [] else Text.ofString ": " ++ e.fault.detail)

end CompileError

end Pattern

end Phrasebook
