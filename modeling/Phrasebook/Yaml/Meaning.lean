import Phrasebook.Number.Integer
import Phrasebook.Text.Base64
import Phrasebook.Yaml.Node
import Phrasebook.Yaml.Timestamp

/-!
# What scalars stand for

A plain scalar without a tag may stand for nothing, a truth value, an integer, a number or a time;
its first byte tells which of these it can be. All other scalars are texts. A tag of one of these
kinds has to agree with the way the scalar is written.
-/

namespace Phrasebook

namespace Yaml

/-- What a scalar stands for. -/
inductive Meaning where
  /-- No value. -/
  | null
  /-- A truth value. -/
  | boolean (b : Bool)
  /-- An integer. -/
  | integer (n : Int)
  /-- A number. -/
  | number (x : Binary64)
  /-- A number beyond all others, of either sign. -/
  | infinity (negative : Bool)
  /-- The result of no computation. -/
  | undefined
  /-- A date, with or without a time. -/
  | time
  /-- A text. -/
  | text (t : Text)
  deriving DecidableEq, Repr

namespace Meaning

/-- The meanings of certain words. -/
def ofWord? (t : Text) : Option Meaning :=
  let among (words : List String) : Bool := (words.map Text.ofString).contains t
  if among ["true", "True", "TRUE"] then some (.boolean true)
  else if among ["false", "False", "FALSE"] then some (.boolean false)
  else if among ["", "~", "null", "Null", "NULL"] then some .null
  else if among [".nan", ".NaN", ".NAN"] then some .undefined
  else if among [".inf", ".Inf", ".INF", "+.inf", "+.Inf", "+.INF"] then some (.infinity false)
  else if among ["-.inf", "-.Inf", "-.INF"] then some (.infinity true)
  else none

/-- Whether every underscore stands between two digits; `afterDigit` says what stands before. -/
def underscoresPartDigits (afterDigit : Bool) : Text → Bool
  | [] => true
  | b :: rest =>
    if b = 0x5F then
      match rest with
      | c :: _ => afterDigit && 48 ≤ c.toNat && c.toNat ≤ 57 && underscoresPartDigits false rest
      | [] => false
    else underscoresPartDigits (48 ≤ b.toNat && b.toNat ≤ 57) rest

/-- A text without its underscores. -/
def dropUnderscores (t : Text) : Text :=
  t.filter (· != 0x5F)

/-- A number that begins with a point. -/
def ofPoint? (t : Text) : Option Meaning :=
  if underscoresPartDigits false t then
    (Binary64.ofText? (dropUnderscores t)).map .number
  else none

/-- An integer of 64 bits with a sign, or of 64 bits without one. -/
def integerOf? (read : Text → Option Nat) (t : Text) : Option Meaning :=
  match Integer.signed? read t with
  | some n => if Integer.fits n then some (.integer n) else
    match read t with
    | some n => if n < Nat.pow 2 64 then some (.integer n) else none
    | none => none
  | none => none

/-- An integer after a sign that names its base: `head` may stand after a minus sign, and the digits
may have a sign of their own when it does not. -/
def marked? (head : String) (base : Nat) (t : Text) : Option Meaning :=
  let digits := Integer.digits? base
  match Text.after? (Text.ofString head) t, Text.after? (0x2D :: Text.ofString head) t with
  | some rest, _ => integerOf? digits rest
  | none, some rest => integerOf? digits (0x2D :: rest)
  | none, none => none

/-- An integer or a number that begins with a digit or a sign. -/
def ofDigits? (t : Text) : Option Meaning :=
  let t := dropUnderscores t
  integerOf? Integer.prefixed? t
    <|> (Binary64.ofText? t).map .number
    <|> marked? "0b" 2 t
    <|> marked? "0o" 8 t

/-- The meaning of a plain scalar. A time is looked for only where `times` allows it. -/
def ofPlain (times : Bool) (t : Text) : Meaning :=
  match t with
  | [] => .null
  | b :: _ =>
    if (Text.ofString "yYnNtTfFoO~").contains b then (ofWord? t).getD (.text t)
    else if b = 0x2E then (ofWord? t <|> ofPoint? t).getD (.text t)
    else if (Text.ofString "+-0123456789").contains b then
      if times ∧ Timestamp.isTimestamp t then .time
      else (ofWord? t <|> ofDigits? t).getD (.text t)
    else .text t

/-- The short form of the tag of a meaning. -/
def tag : Meaning → Text
  | .null => Text.ofString "!!null"
  | .boolean _ => Text.ofString "!!bool"
  | .integer _ => Text.ofString "!!int"
  | .number _ | .infinity _ | .undefined => Text.ofString "!!float"
  | .time => Text.ofString "!!timestamp"
  | .text _ => Text.ofString "!!str"

end Meaning

/-- The short form of a tag: two exclamation marks for the usual tags. -/
def shortTag (tag : Text) : Text :=
  match Text.after? (Text.ofString "tag:yaml.org,2002:") tag with
  | some rest => Text.ofString "!!" ++ rest
  | none => tag

/-- The meaning of a scalar; fails when its tag does not agree with the way it is written. -/
def meaning? (tag : Text) (isPlain : Bool) (t : Text) : Option Meaning :=
  let tag := shortTag tag
  if tag.isEmpty then some (if isPlain then Meaning.ofPlain true t else .text t)
  else if tag = Text.ofString "!!str" then some (.text t)
  else if tag = Text.ofString "!!binary" then (Base64.decode t).map .text
  else if ["!!bool", "!!int", "!!float", "!!null", "!!timestamp"].map Text.ofString |>.contains tag
  then
    let meaning := Meaning.ofPlain (tag = Text.ofString "!!timestamp") t
    if meaning.tag = tag then some meaning
    else
      match meaning with
      | .integer n =>
        if tag = Text.ofString "!!float" ∧ Integer.fits n then
          (Binary64.ofRatio (n < 0) n.natAbs 1).map .number
        else none
      | _ => none
  else some (.text t)

end Yaml

end Phrasebook
