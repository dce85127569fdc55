import Phrasebook.Number.Binary64

/-!
# Constant values and how they are written

A scalar is a number, an integer, a string or a boolean. Each has its own written form, and
`LiteralForm.read` reads a text in it: nothing but the constant may stand in the text, not even
blanks. A string stands between double quotes and writes a quote inside as two.
-/

namespace Phrasebook

/-- A constant value. -/
inductive Scalar where
  /-- A number. -/
  | number (x : Binary64)
  /-- An integer. -/
  | integer (n : Int)
  /-- A string of bytes. -/
  | string (t : Text)
  /-- A truth value. -/
  | boolean (b : Bool)
  /-- No value. -/
  | nothing
  deriving DecidableEq, Repr

namespace Scalar

/-- The value as reports show it. -/
def toText : Scalar → Text
  | .number x => x.toText
  | .integer n => Text.ofInt n
  | .string t => t
  | .boolean true => Text.ofString "true"
  | .boolean false => Text.ofString "false"
  | .nothing => Text.ofString "<nil>"

/-- Values in brackets, parted by blanks. -/
def listText (values : List Scalar) : Text :=
  0x5B :: (Text.join [0x20] (values.map toText) ++ [0x5D])

end Scalar

/-- The double quote. -/
def quoteByte : UInt8 := 0x22

/-- How the constants of a type are written. -/
inductive LiteralForm where
  /-- A decimal number, with or without a point and an exponent. -/
  | number
  /-- A decimal integer of 64 bits. -/
  | integer
  /-- A text between double quotes. -/
  | string
  /-- One of `true`, `yes`, `on`, `false`, `no` and `off`. -/
  | boolean
  /-- One of these words. -/
  | word (words : List Text)
  deriving DecidableEq, Repr

namespace LiteralForm

/-- The bytes of a decimal number. -/
def numberBytes : Text := Text.ofString "0123456789+-.eE"

/-- Reads a decimal number. -/
def readNumber (t : Text) : Option Binary64 :=
  if t.isEmpty || !t.all numberBytes.contains then none else Binary64.ofText? t

/-- Reads a decimal integer that fits 64 bits. -/
def readInteger (t : Text) : Option Int :=
  let (negative, digits) := Binary64.readSign t
  match Binary64.readDigits 0 0 digits with
  | (value, count, []) =>
    if count = 0 then none
    else
      let n : Int := if negative then -(value : Int) else value
      if -Int.pow 2 63 ≤ n ∧ n < Int.pow 2 63 then some n else none
  | _ => none

/-- Reads what follows the opening quote of a string, up to the closing quote that ends the text. -/
def readStringBody : Text → Option Text
  | [] => none
  | c :: rest =>
    if c = quoteByte then
      match rest with
      | [] => some []
      | d :: rest => if d = quoteByte then (readStringBody rest).map (quoteByte :: ·) else none
    else (readStringBody rest).map (c :: ·)

/-- Reads a string between double quotes. -/
def readString : Text → Option Text
  | [] => none
  | c :: rest => if c = quoteByte then readStringBody rest else none

/-- Reads a truth value, in letters of any case. -/
def readBoolean (t : Text) : Option Bool :=
  let word := t.lower
  if [Text.ofString "true", Text.ofString "yes", Text.ofString "on"].contains word then some true
  else if [Text.ofString "false", Text.ofString "no", Text.ofString "off"].contains word then
    some false
  else none

/-- Reads one of the words, in letters of any case, and gives it as it is listed. -/
def readWord (words : List Text) (t : Text) : Option Text :=
  words.find? (·.equalFold t)

/-- Reads a constant. -/
def read : LiteralForm → Text → Option Scalar
  | .number, t => (readNumber t).map .number
  | .integer, t => (readInteger t).map .integer
  | .string, t => (readString t).map .string
  | .boolean, t => (readBoolean t).map .boolean
  | .word words, t => (readWord words t).map .string

end LiteralForm

end Phrasebook
