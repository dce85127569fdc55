import Phrasebook.Regex.CharSet

/-!
# Trees of regular expressions

What a source means, before it is run. Concatenation and alternation are binary. The tree records
for every character test and every reference whether it reads forwards or, inside a lookbehind,
backwards; the parts of a concatenation that is read backwards stand in the order they are tried.
-/

namespace Phrasebook

namespace Regex

/-- Conditions on a position. -/
inductive Anchor where
  /-- The start of the text. -/
  | textStart
  /-- The start of a line. -/
  | lineStart
  /-- The end of the text. -/
  | textEnd
  /-- The end of the text, or just before a newline that ends it. -/
  | lastLineEnd
  /-- The end of a line. -/
  | lineEnd
  /-- Where the search began. -/
  | searchStart
  /-- Between a word character and none. -/
  | wordEdge
  /-- Anywhere else. -/
  | noWordEdge
  deriving DecidableEq, Repr

/-- A regular expression as a tree. -/
inductive Node where
  /-- Matches nothing but the empty text. -/
  | empty
  /-- One character of a set; `ignoreCase` looks its lower-case form up. -/
  | one (set : CharSet) (ignoreCase backwards : Bool)
  /-- A condition on the position. -/
  | anchor (a : Anchor)
  /-- One tree and then another. -/
  | seq (first second : Node)
  /-- One tree or, failing that, another. -/
  | alt (first second : Node)
  /-- Records what the body spans in a slot, after taking back the last span of another slot. -/
  | capture (slot : Option Nat) (takes : Option Nat) (body : Node)
  /-- Repeats the body; `most` is `none` for as often as it matches. -/
  | repeated (eager : Bool) (least : Nat) (most : Option Nat) (body : Node)
  /-- Requires, or forbids, that the body matches here, and stays. -/
  | look (wanted : Bool) (body : Node)
  /-- Takes the first way the body matches and no other. -/
  | atomic (body : Node)
  /-- What a slot recorded last. -/
  | backref (slot : Nat) (ignoreCase backwards : Bool)
  /-- Chooses by whether a slot has recorded something. -/
  | ifSlot (slot : Nat) (yes no : Node)
  /-- Chooses by whether a condition matches here. -/
  | ifLook (condition yes no : Node)
  deriving Repr

namespace Node

/-- Trees one after the other. -/
def ofList : List Node → Node
  | [] => .empty
  | [node] => node
  | node :: rest => .seq node (ofList rest)

/-- Trees as alternatives, the first preferred. -/
def ofAlternatives : List Node → Node
  | [] => .empty
  | [node] => node
  | node :: rest => .alt node (ofAlternatives rest)

end Node

/-- The slots of an expression. -/
structure Slots where
  /-- The numbers of all slots, in order; number 0 is the whole match. -/
  numbers : List Nat
  /-- The names of slots, each with its number. -/
  names : List (Text × Nat)
  deriving Repr

namespace Slots

/-- Whether a number is that of a slot. -/
def hasNumber (slots : Slots) (n : Nat) : Bool :=
  slots.numbers.contains n

/-- The number of the slot of this name. -/
def numberOf? (slots : Slots) (name : Text) : Option Nat :=
  slots.names.lookup name

end Slots

/-- A compiled expression. -/
structure Program where
  /-- Its tree, which records the whole match in slot 0. -/
  root : Node
  /-- Its slots. -/
  slots : Slots
  deriving Repr

end Regex

end Phrasebook
