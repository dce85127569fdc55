import Phrasebook.Text

/-!
# What can be wrong with a regular expression

Each cause of rejection, and the one function that words it.
-/

namespace Phrasebook

namespace Regex

/-- Why a source is no regular expression. -/
inductive Error where
  /-- A comment without an end. -/
  | unterminatedComment
  /-- A repetition whose least count is above its greatest. -/
  | invalidRepeatCount
  /-- A number too large for a slot or a count. -/
  | numberOutOfRange
  /-- A closing parenthesis that closes nothing. -/
  | unexpectedParen
  /-- A group without an end. -/
  | missingParen
  /-- A code point in braces without an end. -/
  | missingBrace
  /-- A repetition of a repetition. -/
  | nestedRepetition
  /-- A repetition of nothing. -/
  | missingRepeatArgument
  /-- A conditional without a condition. -/
  | illegalConditional
  /-- A conditional with more than two branches. -/
  | tooManyBranches
  /-- A parenthesis followed by what opens no group. -/
  | unrecognizedGrouping (opening : Text)
  /-- A group name that is none. -/
  | invalidGroupName
  /-- A group numbered zero. -/
  | zeroGroup
  /-- A reference to a number that no group has. -/
  | undefinedNumber (n : Nat)
  /-- A reference to a name that no group has. -/
  | undefinedName (name : Text)
  /-- A condition that would record something. -/
  | capturingCondition
  /-- A condition that is a comment. -/
  | commentCondition
  /-- A condition that begins like a reference and goes on differently. -/
  | malformedCondition (n : Nat)
  /-- A condition on a number that no group has. -/
  | undefinedCondition (n : Nat)
  /-- A backslash at the end. -/
  | trailingBackslash
  /-- A class escape without braces. -/
  | malformedClass
  /-- A class escape without an end. -/
  | incompleteClass
  /-- A class that has no such name. -/
  | unknownClass (name : Text)
  /-- An escape of a letter that means nothing. -/
  | unrecognizedEscape (c : Text)
  /-- A control escape at the end. -/
  | missingControl
  /-- A control escape of what is no control character. -/
  | unrecognizedControl
  /-- Too few hexadecimal digits. -/
  | tooFewHexDigits
  /-- A code point above the greatest. -/
  | hexTooLarge
  /-- A named reference without its brackets. -/
  | malformedNameReference
  /-- A class as the end of a range. -/
  | classInRange (code : Nat)
  /-- A set without an end. -/
  | unterminatedSet
  /-- A set taken away before the end of another. -/
  | subtractionNotLast
  /-- A range that ends before it begins. -/
  | reversedRange (first last : Text)
  deriving DecidableEq, Repr

namespace Error

/-- The cause in words. -/
def reason : Error → Text
  | .unterminatedComment => Text.ofString "unterminated comment"
  | .invalidRepeatCount => Text.ofString "invalid repeat count"
  | .numberOutOfRange => Text.ofString "capture group number out of range"
  | .unexpectedParen => Text.ofString "unexpected )"
  | .missingParen => Text.ofString "missing closing )"
  | .missingBrace => Text.ofString "missing closing \x7d"
  | .nestedRepetition => Text.ofString "invalid nested repetition operator"
  | .missingRepeatArgument => Text.ofString "missing argument to repetition operator"
  | .illegalConditional => Text.ofString "illegal conditional (?(...)) expression"
  | .tooManyBranches => Text.ofString "too many | in (?()|)"
  | .unrecognizedGrouping opening =>
    Text.ofString "unrecognized grouping construct: (" ++ opening
  | .invalidGroupName =>
    Text.ofString ("invalid group name: group names must begin with a word character " ++
      "and have a matching terminator")
  | .zeroGroup => Text.ofString "capture number cannot be zero"
  | .undefinedNumber n => Text.ofString "reference to undefined group number " ++ Text.ofNat n
  | .undefinedName name => Text.ofString "reference to undefined group name " ++ name
  | .capturingCondition =>
    Text.ofString "alternation conditions do not capture and cannot be named"
  | .commentCondition => Text.ofString "alternation conditions cannot be comments"
  | .malformedCondition n =>
    Text.ofString "(?(" ++ Text.ofNat n ++ Text.ofString ") ) malformed"
  | .undefinedCondition n =>
    Text.ofString "(?(" ++ Text.ofNat n ++ Text.ofString ") ) reference to undefined group"
  | .trailingBackslash => Text.ofString "illegal \\ at end of pattern"
  | .malformedClass => Text.ofString "malformed \\p\x7bX\x7d character escape"
  | .incompleteClass => Text.ofString "incomplete \\p\x7bX\x7d character escape"
  | .unknownClass name =>
    Text.ofString "unknown unicode category, script, or property '" ++ name ++ Text.ofString "'"
  | .unrecognizedEscape c => Text.ofString "unrecognized escape sequence \\" ++ c
  | .missingControl => Text.ofString "missing control character"
  | .unrecognizedControl => Text.ofString "unrecognized control character"
  | .tooFewHexDigits => Text.ofString "insufficient hexadecimal digits"
  | .hexTooLarge => Text.ofString "hex values may not be larger than 0x10FFFF"
  | .malformedNameReference => Text.ofString "malformed \\k<...> named back reference"
  | .classInRange code =>
    Text.ofString "cannot include class \\" ++ Text.ofNat code ++
      Text.ofString " in character range"
  | .unterminatedSet => Text.ofString "unterminated [] set"
  | .subtractionNotLast =>
    Text.ofString "a subtraction must be the last element in a character class"
  | .reversedRange first last =>
    Text.ofString "[" ++ first ++ Text.ofString "-" ++ last ++
      Text.ofString "] range in reverse order"

/-- The message about a source that was rejected for this cause. -/
def message (e : Error) (source : Text) : Text :=
  Text.ofString "error parsing regexp: " ++ e.reason ++ Text.ofString " in `" ++ source ++
    Text.ofString "`"

end Error

end Regex

end Phrasebook
