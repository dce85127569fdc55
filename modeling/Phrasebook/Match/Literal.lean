import Phrasebook.Text

/-!
# Matching literal text

Literal text is matched character by character. A run of white space in it is a *gap*: it matches
the white space of the input at that place, and there must be some, except at the ends of the input
and right after white space that was already passed.
-/

namespace Phrasebook

/-- A part of literal text. -/
inductive Piece where
  /-- A run of white space. -/
  | gap
  /-- A character that is no white space. -/
  | char (c : Char)
  deriving DecidableEq, Repr

namespace Piece

/-- The characters of a literal, with each run of white space as one gap. -/
def ofChars : List Char → List Piece
  | [] => []
  | c :: rest =>
    if Unicode.isBlank c then
      match ofChars rest with
      | .gap :: more => .gap :: more
      | more => .gap :: more
    else .char c :: ofChars rest

/-- The pieces of a literal. -/
def ofText (t : Text) : List Piece :=
  ofChars t.chars

/-- The pieces without a gap at their start. -/
def dropGap : List Piece → List Piece
  | .gap :: rest => rest
  | pieces => pieces

/-- Whether there is nothing but white space. -/
def allBlank (pieces : List Piece) : Bool :=
  pieces.all (· == .gap)

/-- Whether two characters count as the same: up to letter case, unless case matters. -/
def sameChar (caseSensitive : Bool) (a b : Char) : Bool :=
  a == b || (!caseSensitive &&
    (Unicode.toLower a == Unicode.toLower b || Unicode.toUpper a == Unicode.toUpper b))

/-- Whether a position follows white space or begins the text. -/
def afterBlank (input : Text) (pos : Nat) : Bool :=
  pos == 0 || Text.endsBlank (input.take pos)

/-- Where a match of the pieces at a position ends. -/
def matchAt (caseSensitive : Bool) (input : Text) : List Piece → Nat → Option Nat
  | [], pos => some pos
  | .gap :: rest, pos =>
    let next := input.skipBlank pos
    if next = pos ∧ pos < input.length ∧ afterBlank input pos = false then none
    else matchAt caseSensitive input rest next
  | .char c :: rest, pos =>
    match Text.front? (input.drop pos) with
    | none => none
    | some (d, width) =>
      if sameChar caseSensitive c d then matchAt caseSensitive input rest (pos + width) else none

end Piece

end Phrasebook
