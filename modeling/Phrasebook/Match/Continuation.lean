import Phrasebook.Match.Context
import Phrasebook.Match.Literal

/-!
# What may follow a slot

A slot takes text up to a place where the rest of the pattern can begin. The ways it can begin are
read off the nodes that follow: literal text or a regular expression at that place, another slot,
which begins with any text that is not blank, or the end of the pattern. A node that can be passed
over, such as an optional part, leaves the ways of the nodes after it open.
-/

namespace Phrasebook

/-- One way the rest of a pattern can begin. -/
inductive Continuation where
  /-- With this literal text. -/
  | text (pieces : List Piece)
  /-- With a match of a regular expression. -/
  | regex (finder : Option Regex.Finder)
  /-- With any text. -/
  | anything
  /-- The pattern is over, and nothing but white space is left. -/
  | finish
  /-- With a node of an unknown kind. -/
  | unknown

namespace Continuation

/-- The ways one of two follow each other, `first` and then, if it can be passed over, `second`. -/
def andThen (first second : List Continuation × Bool) : List Continuation × Bool :=
  if first.2 then (first.1 ++ second.1, second.2) else (first.1, false)

mutual

/-- The ways a node can begin, and whether it can be passed over. -/
def ofPattern : Pattern → List Continuation × Bool
  | .text content =>
    let pieces := Piece.ofText content
    if Piece.allBlank pieces then ([], true) else ([.text (Piece.dropGap pieces)], false)
  | .regex _ finder => ([.regex finder], false)
  | .slot s => ([.anything], s.nullable)
  | .sequence children => ofPatterns children
  | .optional child => ((ofPattern child).1, true)
  | .choice alternatives => ofBranches alternatives
  | .unknown _ => ([.unknown], false)

/-- The ways a sequence can begin, and whether all of it can be passed over. -/
def ofPatterns : List Pattern → List Continuation × Bool
  | [] => ([], true)
  | p :: ps => andThen (ofPattern p) (ofPatterns ps)

/-- The ways one of the branches can begin, and whether one of them can be passed over. -/
def ofBranches : List (Mark × Pattern) → List Continuation × Bool
  | [] => ([], false)
  | (_, p) :: rest =>
    let first := ofPattern p
    let others := ofBranches rest
    (first.1 ++ others.1, first.2 || others.2)

end

/-- The ways the rest of a pattern can begin, given what follows in each enclosing sequence, the
innermost first. -/
def ofFollow : List (List Pattern) → List Continuation
  | [] => [.finish]
  | siblings :: outer =>
    let first := ofPatterns siblings
    if first.2 then first.1 ++ ofFollow outer else first.1

/-- Whether a way can begin at a position, which is not blank. -/
def beginsAt (caseSensitive : Bool) (input : Text) (pos : Nat) : Continuation → Bool
  | .finish => pos == input.length
  | .anything => pos < input.length
  | .text pieces => (Piece.matchAt caseSensitive input pieces pos).isSome
  | .regex (some finder) => (finder (input.drop pos)).isSome
  | .regex none => false
  | .unknown => false

/-- Whether the rest of the pattern can begin at a position, after white space. -/
def continues (caseSensitive : Bool) (input : Text) (pos : Nat) (ways : List Continuation) : Bool :=
  ways.any (beginsAt caseSensitive input (input.skipBlank pos))

/-- Whether one of the ways is a node of an unknown kind. -/
def anyUnknown (ways : List Continuation) : Bool :=
  ways.any fun
    | .unknown => true
    | _ => false

end Continuation

end Phrasebook
