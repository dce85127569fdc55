import Phrasebook.Text
import Phrasebook.Unicode.Script

/-!
# Sets of characters

A set in a regular expression is built from ranges of code points and from named classes, may be
negated as a whole, and may have another set taken away from it, which in turn may have another one
taken away from it. Such a chain of sets is a list of layers, the outermost first.

Two rules are worth stating. A class that decides about a character ends the search: of the
classes, the first that holds the character, or that is negated, gives the answer. And a class
listed together with its own negation makes the layer hold everything.
-/

namespace Phrasebook

namespace Regex

/-- A named class of characters. -/
inductive CharClass where
  /-- Letters, nonspacing marks, decimal digits, connecting punctuation and the two joiners. -/
  | word
  /-- White space. -/
  | blank
  /-- A general category or a group of them. -/
  | category (code : String)
  /-- A script or a property, with its ranges. -/
  | listed (name : String) (ranges : List (Nat × Nat))
  deriving DecidableEq, Repr

/-- The characters that make up words. -/
def isWordCode (n : Nat) : Bool :=
  n == 0x200C || n == 0x200D ||
    match Unicode.Category.ofCodePoint n with
    | .nonspacingMark | .decimalNumber | .connectorPunctuation => true
    | category => category.isLetter

namespace CharClass

/-- Whether a code point belongs to the class. -/
def holds (cls : CharClass) (n : Nat) : Bool :=
  match cls with
  | .word => isWordCode n
  | .blank => Unicode.isBlank (Char.ofNat n)
  | .category code => (Unicode.Category.ofCodePoint n).hasCode code
  | .listed _ ranges => ranges.any fun (lo, hi) => lo ≤ n && n ≤ hi

/-- The class of a general category, a script or a property. -/
def named? (name : String) : Option CharClass :=
  if Unicode.Category.codes.contains name then some (.category name)
  else (Unicode.NamedSet.ranges? name).map (.listed name)

end CharClass

/-- One layer of a set. -/
structure CharLayer where
  /-- Whether the layer holds what its parts do not. -/
  negated : Bool
  /-- Ranges of code points, both ends included. -/
  ranges : List (Nat × Nat)
  /-- Classes, each with whether it is negated. -/
  classes : List (CharClass × Bool)
  deriving DecidableEq, Repr

namespace CharLayer

/-- The layer without any part. -/
def empty : CharLayer := ⟨false, [], []⟩

/-- All code points. -/
def full : List (Nat × Nat) := [(0, 0x10FFFF)]

/-- What the first class that decides says about a code point. -/
def classesHold (n : Nat) : List (CharClass × Bool) → Bool
  | [] => false
  | (cls, negated) :: rest =>
    if cls.holds n then !negated
    else if negated then true
    else classesHold n rest

/-- Whether the layer holds a code point. -/
def holds (layer : CharLayer) (n : Nat) : Bool :=
  let inside := layer.ranges.any (fun (lo, hi) => lo ≤ n && n ≤ hi) || classesHold n layer.classes
  inside != layer.negated

/-- The layer with a range more. -/
def addRange (layer : CharLayer) (lo hi : Nat) : CharLayer :=
  { layer with ranges := layer.ranges ++ [(lo, hi)] }

/-- The layer with a class more. -/
def addClass (layer : CharLayer) (cls : CharClass) (negated : Bool) : CharLayer :=
  if layer.classes.any fun (c, b) => c == cls && b != negated then
    { layer with ranges := full, classes := [] }
  else if layer.classes.contains (cls, negated) || layer.ranges == full then layer
  else { layer with classes := layer.classes ++ [(cls, negated)] }

/-- The class of a name; the three categories of cased letters stand for each other when case is
ignored. -/
def addNamed (layer : CharLayer) (cls : CharClass) (negated ignoreCase : Bool) : CharLayer :=
  if ignoreCase && (cls == .category "Ll" || cls == .category "Lu" || cls == .category "Lt") then
    (((layer.addClass (.category "Ll") negated).addClass (.category "Lu") negated).addClass
      (.category "Lt") negated)
  else layer.addClass cls negated

/-- The lower-case forms of the members of a range. -/
def lowerRange (lo hi : Nat) : List (Nat × Nat) :=
  Unicode.lowerRuns.flatMap fun run =>
    let first := max lo run.first
    let last := min hi run.last
    if first ≤ last then
      (List.range ((last - first) / run.step + 1)).filterMap fun i =>
        let n := first + (run.step - (first - run.first) % run.step) % run.step + i * run.step
        if n ≤ last then
          let lower := Int.toNat (n + run.shift)
          some (lower, lower)
        else none
    else []

/-- The layer with the lower-case forms of its ranges: what a lower-case character is looked up in
when case is ignored. -/
def addLower (layer : CharLayer) : CharLayer :=
  { layer with ranges := layer.ranges.flatMap fun (lo, hi) =>
      if lo = hi then
        let n := (Unicode.toLower (Char.ofNat lo)).toNat
        if n = 0 && lo ≠ 0 then [(lo, lo)] else [(n, n)]
      else (lo, hi) :: lowerRange lo hi }

end CharLayer

/-- A set: its layers, each taken away from the one before. -/
abbrev CharSet := List CharLayer

namespace CharSet

/-- Whether the set holds a code point. -/
def holds (n : Nat) : CharSet → Bool
  | [] => false
  | layer :: rest => layer.holds n && !holds n rest

/-- The set of one code point. -/
def single (n : Nat) : CharSet := [{ CharLayer.empty with ranges := [(n, n)] }]

/-- The set of all code points but one. -/
def allBut (n : Nat) : CharSet := [⟨true, [(n, n)], []⟩]

/-- The set of all code points. -/
def all : CharSet := [{ CharLayer.empty with ranges := CharLayer.full }]

/-- The set of a class, or of everything else. -/
def ofClass (cls : CharClass) (negated : Bool) : CharSet :=
  [⟨negated, [], [(cls, false)]⟩]

end CharSet

end Regex

end Phrasebook
