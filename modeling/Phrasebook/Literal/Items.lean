import Phrasebook.Text

/-!
# Lists written out in words

A list such as `1, 2 and 3` is cut at commas and at the words "and" and "or" with a blank on both
sides, outside double quotes. Each piece loses the white space at its ends and must not be empty,
and a list uses one of the two words only.

Cutting looks at single bytes: a byte is a blank here when the character of that number is one.
-/

namespace Phrasebook

namespace Literal

/-- The words that join the items of a list. -/
inductive Conjunction where
  /-- All of the items. -/
  | and
  /-- Any of the items. -/
  | or
  deriving DecidableEq, Repr

namespace Conjunction

/-- The word. -/
def word : Conjunction → Text
  | .and => [0x61, 0x6E, 0x64]
  | .or => [0x6F, 0x72]

end Conjunction

/-- Bytes that count as blanks between items. -/
def isBlankByte (b : UInt8) : Bool :=
  Unicode.isBlank (Char.ofNat b.toNat)

/-- An ASCII letter in lower case; other bytes are left alone. -/
def lowerByte (b : UInt8) : UInt8 :=
  if 0x41 ≤ b.toNat ∧ b.toNat ≤ 0x5A then b + 0x20 else b

/-- What follows a conjunction and a blank in a text that begins with them. -/
def afterConjunction? (c : Conjunction) (t : Text) : Option Text :=
  if (t.take c.word.length).map lowerByte = c.word then
    match t.drop c.word.length with
    | b :: rest => if isBlankByte b then some rest else none
    | [] => none
  else none

/-- The conjunction that begins a text, with what follows it and its blank. -/
def conjunction? (t : Text) : Option (Conjunction × Text) :=
  match afterConjunction? .and t with
  | some rest => some (.and, rest)
  | none => (afterConjunction? .or t).map (.or, ·)

theorem afterConjunction?_length {c : Conjunction} {t rest : Text}
    (h : afterConjunction? c t = some rest) : rest.length < t.length := by
  unfold afterConjunction? at h
  split at h
  · split at h
    · rename_i b more hd
      split at h
      · simp only [Option.some.injEq] at h
        have := congrArg List.length hd
        simp only [List.length_drop, List.length_cons] at this
        subst h
        omega
      · simp at h
    · simp at h
  · simp at h

theorem conjunction?_length {c : Conjunction} {t rest : Text}
    (h : conjunction? t = some (c, rest)) : rest.length < t.length := by
  unfold conjunction? at h
  split at h
  · rename_i r hr
    simp only [Option.some.injEq, Prod.mk.injEq] at h
    exact h.2 ▸ afterConjunction?_length hr
  · simp only [Option.map_eq_some_iff, Prod.mk.injEq] at h
    obtain ⟨r, hr, _, rfl⟩ := h
    exact afterConjunction?_length hr

/-- A text cut into pieces, with the conjunctions it was cut at. -/
structure Pieces where
  /-- The pieces in order, as they stand between the cuts. -/
  pieces : List Text
  /-- The conjunctions in order. -/
  conjunctions : List Conjunction
  deriving DecidableEq, Repr

namespace Pieces

/-- Puts a piece in front. -/
def push (piece : Text) (cut : Pieces) : Pieces :=
  { cut with pieces := piece :: cut.pieces }

/-- Puts a piece and the conjunction after it in front. -/
def pushJoined (piece : Text) (c : Conjunction) (cut : Pieces) : Pieces :=
  { pieces := piece :: cut.pieces, conjunctions := c :: cut.conjunctions }

end Pieces

/-- Cuts a text, `current` being what was read of the piece before it and `quoted` whether that
ends inside quotes. A text that ends inside quotes cannot be cut. -/
def cut (quoted : Bool) (current : Text) : Text → Option Pieces
  | [] => if quoted then none else some ⟨[current], []⟩
  | c :: rest =>
    if c = 0x22 then cut (!quoted) (current ++ [c]) rest
    else if quoted then cut quoted (current ++ [c]) rest
    else if c = 0x2C then (cut false [] rest).map (·.push current)
    else if isBlankByte c then
      match _h : conjunction? rest with
      | some (word, after) => (cut false [] after).map (·.pushJoined current word)
      | none => cut quoted (current ++ [c]) rest
    else cut quoted (current ++ [c]) rest
termination_by t => t.length
decreasing_by
  all_goals simp only [List.length_cons]
  all_goals first
    | omega
    | (have hl := conjunction?_length _h; omega)

/-- The items of a list, and whether all of them are meant rather than any. -/
structure Items where
  /-- The items in order. -/
  items : List Text
  /-- Whether the list is one of all of its items. -/
  isAnd : Bool
  deriving DecidableEq, Repr

/-- The items of a list written out in words. -/
def splitItems (t : Text) : Option Items :=
  match cut false [] t with
  | none => none
  | some parts =>
    if parts.conjunctions.contains .and && parts.conjunctions.contains .or then none
    else
      let items := parts.pieces.map Text.trim
      if items.any List.isEmpty then none
      else some ⟨items, !parts.conjunctions.contains .or⟩

end Literal

end Phrasebook
