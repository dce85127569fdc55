import Phrasebook.Registry

/-!
# Pattern trees

A pattern is a tree of literal text, sequences, optional parts, choices with marks, embedded regular
expressions and typed slots. `Pattern.render` writes a tree back as a pattern, and `Pattern.equal?`
compares two trees: regular expressions by their source and slots by the types they refer to.

A tree may also hold nodes of a kind that the library does not know. They can be printed and nothing
else, so that comparing two of them has no answer.
-/

namespace Phrasebook

/-- What may fill a slot. -/
inductive Acceptance where
  /-- Constants and expressions. -/
  | both
  /-- Constants only. -/
  | literals
  /-- Expressions only. -/
  | expressions
  /-- A code without a meaning. -/
  | other (code : Int)
  deriving DecidableEq, Repr

namespace Acceptance

/-- The meaning of a code. -/
def ofCode (code : Int) : Acceptance :=
  if code = 0 then .both else if code = 1 then .literals else if code = 2 then .expressions
  else .other code

/-- The acceptance in a word. -/
def toText : Acceptance → Text
  | .both => Text.ofString "both"
  | .literals => Text.ofString "literals"
  | .expressions => Text.ofString "expressions"
  | .other _ => Text.ofString "unknown"

end Acceptance

/-- The time at which a slot's value is read. -/
inductive Tense where
  /-- No particular time. -/
  | none
  /-- The past state. -/
  | past
  /-- The future state. -/
  | future
  /-- A code without a meaning. -/
  | other (code : Int)
  deriving DecidableEq, Repr

namespace Tense

/-- The meaning of a code. -/
def ofCode (code : Int) : Tense :=
  if code = 0 then .none else if code = 1 then .past else if code = 2 then .future
  else .other code

/-- The time in a word. -/
def toText : Tense → Text
  | .none => Text.ofString "none"
  | .past => Text.ofString "past"
  | .future => Text.ofString "future"
  | .other _ => Text.ofString "unknown"

end Tense

/-- A typed place that a constant or an expression fills. -/
structure Slot where
  /-- The types a value may have. -/
  types : List TypeRef
  /-- Whether the slot may stay empty. -/
  nullable : Bool
  /-- What may fill it. -/
  acceptance : Acceptance
  /-- When its value is read. -/
  tense : Tense
  /-- The type references as they were written, as far as they are known. -/
  spellings : List Text

/-- A mark that a branch of a choice adds to the result. -/
abbrev Mark := Int64

/-- A pattern as a tree. -/
inductive Pattern where
  /-- Literal text. -/
  | text (content : Text)
  /-- Parts one after the other. -/
  | sequence (children : List Pattern)
  /-- A part that may be left out. -/
  | optional (child : Pattern)
  /-- The first branch that matches, with its mark. -/
  | choice (alternatives : List (Mark × Pattern))
  /-- A regular expression, with what it finds if it has been compiled. -/
  | regex (source : Text) (finder : Option Regex.Finder)
  /-- A slot. -/
  | slot (slot : Slot)
  /-- A node of a kind the library does not know, with the text that stands for it. -/
  | unknown (label : Text)

namespace Pattern

instance : Inhabited Pattern := ⟨.text []⟩

/-- The kind of a node in a word. -/
def kindText : Pattern → Text
  | .text _ => Text.ofString "text"
  | .sequence _ => Text.ofString "sequence"
  | .optional _ => Text.ofString "optional"
  | .choice _ => Text.ofString "choice"
  | .regex _ _ => Text.ofString "regex"
  | .slot _ => Text.ofString "slot"
  | .unknown _ => Text.ofString "unknown"

/-- The kinds of node by their code. -/
def kindOfCode (code : Int) : Text :=
  match code with
  | 0 => Text.ofString "text"
  | 1 => Text.ofString "sequence"
  | 2 => Text.ofString "optional"
  | 3 => Text.ofString "choice"
  | 4 => Text.ofString "regex"
  | 5 => Text.ofString "slot"
  | _ => Text.ofString "unknown"

/-! ### Marks -/

/-- Whether a byte is a decimal digit. -/
def isDigit (b : UInt8) : Bool :=
  0x30 ≤ b && b ≤ 0x39

/-- What ends the mark in front of a branch. -/
def markSeparator : Text := [0xC2, 0xA6]

/-- The mark in front of a branch, and the branch after it. A number that does not fit the mark is
no mark. -/
def splitMark (branch : Text) : Option (Mark × Text) :=
  let digits := branch.takeWhile isDigit
  if digits.isEmpty then none
  else
    match Text.after? markSeparator (branch.dropWhile isDigit) with
    | none => none
    | some rest =>
      let value := (Binary64.readDigits 0 0 digits).1
      if value < Nat.pow 2 63 then some (Int64.ofNat value, rest) else none

/-! ### Rendering -/

/-- The bytes that have a meaning in patterns. -/
def specialBytes : Text := Text.ofString "\\[]()<>%|"

/-- Whether a character has a meaning in patterns. -/
def isSpecial (c : Char) : Bool :=
  c.toNat < 0x80 && specialBytes.contains c.toNat.toUInt8

/-- Literal text with a backslash before every character that has a meaning. -/
def escape (content : Text) : Text :=
  if content.any specialBytes.contains then
    content.chars.flatMap fun c =>
      if isSpecial c then 0x5C :: Text.encodeChar c else Text.encodeChar c
  else content

/-- A branch without mark, changed where it would read as one with a mark. -/
def guardMark (branch : Text) : Text :=
  match splitMark branch with
  | none => branch
  | some _ => branch.takeWhile isDigit ++ 0x5C :: branch.dropWhile isDigit

/-- The spellings of a slot's types: as written, or by name. -/
def slotNames : List TypeRef → List Text → List Text
  | [], _ => []
  | _ :: refs, spelling :: spellings => spelling :: slotNames refs spellings
  | ref :: refs, [] => ref.name?.getD [] :: slotNames refs []

/-- What stands before the types of a slot that may stay empty. -/
def nullableSign (nullable : Bool) : Text :=
  if nullable then [0x2D] else []

/-- What stands before the types for what may fill a slot. -/
def acceptanceSign : Acceptance → Text
  | .expressions => [0x7E]
  | .literals => [0x2A]
  | _ => []

/-- What stands after the types for the time a slot is read at. -/
def tenseSuffix : Tense → Text
  | .future => [0x40, 0x31]
  | .past => [0x40, 0x2D, 0x31]
  | _ => []

/-- A slot as it is written. -/
def renderSlot (s : Slot) : Text :=
  ([0x25] : Text) ++ nullableSign s.nullable ++ acceptanceSign s.acceptance ++
    Text.join [0x2F] (slotNames s.types s.spellings) ++ tenseSuffix s.tense ++ [0x25]

/-- A branch with its mark in front. -/
def renderBranch (mark : Mark) (branch : Text) : Text :=
  if mark = 0 then guardMark branch else Text.ofInt mark.toInt ++ markSeparator ++ branch

mutual

/-- The pattern that a tree stands for. -/
def render : Pattern → Text
  | .text content => escape content
  | .sequence children => renderAll children
  | .optional child => ([0x5B] : Text) ++ guardMark child.render ++ [0x5D]
  | .choice alternatives => ([0x28] : Text) ++ Text.join [0x7C] (renderBranches alternatives) ++ [0x29]
  | .regex source _ => ([0x3C] : Text) ++ source ++ [0x3E]
  | .slot s => renderSlot s
  | .unknown label => label

/-- Patterns one after the other. -/
def renderAll : List Pattern → Text
  | [] => []
  | p :: ps => p.render ++ renderAll ps

/-- The branches of a choice. -/
def renderBranches : List (Mark × Pattern) → List Text
  | [] => []
  | (mark, p) :: rest => renderBranch mark p.render :: renderBranches rest

end

/-! ### Equality -/

/-- Whether two lists of references have the same members in the same order. -/
def sameRefs : List TypeRef → List TypeRef → Bool
  | [], [] => true
  | r :: rs, s :: ss => r.same s && sameRefs rs ss
  | _, _ => false

/-- Whether two slots ask for the same. -/
def sameSlot (a b : Slot) : Bool :=
  a.nullable == b.nullable && a.tense == b.tense && a.acceptance == b.acceptance &&
    sameRefs a.types b.types

mutual

/-- Whether two trees are the same; no answer where two unknown nodes would have to be compared. -/
def equal? : Pattern → Pattern → Option Bool
  | .text a, .text b => some (a == b)
  | .sequence as, .sequence bs => if as.length = bs.length then equalAll? as bs else some false
  | .optional a, .optional b => equal? a b
  | .choice as, .choice bs =>
    if as.length = bs.length then equalBranches? as bs else some false
  | .regex a _, .regex b _ => some (a == b)
  | .slot a, .slot b => some (sameSlot a b)
  | .unknown _, .unknown _ => none
  | _, _ => some false

/-- Whether the trees of two lists are the same, up to the first difference. -/
def equalAll? : List Pattern → List Pattern → Option Bool
  | a :: as, b :: bs =>
    match equal? a b with
    | some true => equalAll? as bs
    | other => other
  | _, _ => some true

/-- Whether the branches of two choices are the same, up to the first difference. -/
def equalBranches? : List (Mark × Pattern) → List (Mark × Pattern) → Option Bool
  | (m, a) :: as, (n, b) :: bs =>
    if m = n then
      match equal? a b with
      | some true => equalBranches? as bs
      | other => other
    else some false
  | _, _ => some true

end

end Pattern

end Phrasebook
