import Phrasebook.Pattern
import Phrasebook.Report.Style

/-!
# Trees on paper

A pattern tree is shown with one line for each node: its kind, indented by two blanks for each
level, and what it holds. A branch with a mark stands one level deeper below a line with the mark.
-/

namespace Phrasebook

namespace Report

/-- The types of a slot. -/
def slotTypes (s : Slot) : Text :=
  Text.join [0x2F] (s.types.map TypeRef.toText)

/-- What is special about a slot. -/
def slotFlags (s : Slot) : List Text :=
  (if s.nullable then [Text.ofString "nullable"] else []) ++
    (if s.acceptance = .both then [] else [s.acceptance.toText ++ Text.ofString " only"]) ++
    (if s.tense = .none then [] else [s.tense.toText])

/-- The blanks in front of a line. -/
def indent (level : Nat) : Text :=
  List.replicate (2 * level) 0x20

/-- The line of a mark. -/
def markLine (colours : Bool) (level : Nat) (mark : Mark) : Text :=
  indent level ++
    Style.value.paint colours (Text.ofString "mark " ++ Text.ofInt mark.toInt) ++ [0x0A]

/-- The start of a node's line. -/
def nodeHead (colours : Bool) (level : Nat) (p : Pattern) : Text :=
  indent level ++ Style.name.paint colours p.kindText

/-- The flags of a slot, each after a blank. -/
def flagsText (colours : Bool) (flags : List Text) : Text :=
  flags.flatMap fun flag => 0x20 :: Style.value.paint colours flag

mutual

/-- The lines of a tree at a level. -/
def treeLines (colours : Bool) (level : Nat) : Pattern → Text
  | .text content =>
    nodeHead colours level (.text content) ++
      0x20 :: (Style.pattern.paint colours content.quoted ++ [0x0A])
  | .regex source finder =>
    nodeHead colours level (.regex source finder) ++
      0x20 :: (Style.pattern.paint colours source ++ [0x0A])
  | .slot s =>
    nodeHead colours level (.slot s) ++
      0x20 :: (Style.pattern.paint colours (slotTypes s) ++ flagsText colours (slotFlags s) ++
        [0x0A])
  | .sequence children =>
    nodeHead colours level (.sequence children) ++ 0x0A :: childLines colours (level + 1) children
  | .optional child =>
    nodeHead colours level (.optional child) ++ 0x0A :: treeLines colours (level + 1) child
  | .choice alternatives =>
    nodeHead colours level (.choice alternatives) ++
      0x0A :: branchLines colours (level + 1) alternatives
  | .unknown label => nodeHead colours level (.unknown label) ++ 0x20 :: (label ++ [0x0A])

/-- The lines of trees one after the other. -/
def childLines (colours : Bool) (level : Nat) : List Pattern → Text
  | [] => []
  | p :: ps => treeLines colours level p ++ childLines colours level ps

/-- The lines of the branches of a choice. -/
def branchLines (colours : Bool) (level : Nat) : List (Mark × Pattern) → Text
  | [] => []
  | (mark, p) :: rest =>
    (if mark = 0 then treeLines colours level p
      else markLine colours level mark ++ treeLines colours (level + 1) p) ++
      branchLines colours level rest

end

/-- A tree on paper. -/
def tree (colours : Bool) (p : Pattern) : Text :=
  treeLines colours 0 p

end Report

end Phrasebook
