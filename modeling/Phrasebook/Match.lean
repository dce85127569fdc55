import Phrasebook.Match.Continuation

/-!
# Matching patterns

`Matcher.matchAt` matches a pattern against an input at an offset. A choice takes the first branch
that matches and an optional part is taken when it matches; neither is tried again when a later part
fails. A slot offers the resolver the texts that end where the rest of the pattern could begin, the
shortest first, and takes the first that the resolver accepts.

Nodes report where they end, or that they fail, and pass the context on; a node that fails after
some of its parts matched brings the context back to where it was.
-/

namespace Phrasebook

/-- How patterns are matched. -/
structure Matcher (V : Type) where
  /-- What fills slots; without it only slots that may stay empty match. -/
  resolver : Option (Resolver V)
  /-- Whether the case of letters in literal text matters. -/
  caseSensitive : Bool

namespace Matcher

variable {V : Type}

/-- What a step of matching gives: where it ends, if it matches, and the context after it. -/
abbrev Step (V : Type) := Option Nat × Context V

/-! ### Slots -/

/-- The ends of characters of these widths that begin at `pos`. -/
def charEnds (pos : Nat) : List (Char × Nat) → List Nat
  | [] => []
  | (_, width) :: rest => (pos + width) :: charEnds (pos + width) rest

/-- Offers the texts that end at admissible places, in order, until one is accepted. Gives the
offers made and, for an accepted one, the number of bytes used and the value. -/
def offerEach (resolve : Resolver V) (request : Request) (admissible : Nat → Bool)
    (candidate : Nat → Text) : List Nat → List Offer × Option (Nat × V)
  | [] => ([], none)
  | stop :: rest =>
    if admissible stop then
      match resolve (candidate stop) request with
      | some r =>
        ([⟨candidate stop, request, true⟩],
          some (r.lengthWithin (candidate stop).length, r.value))
      | none =>
        let more := offerEach resolve request admissible candidate rest
        (⟨candidate stop, request, false⟩ :: more.1, more.2)
    else offerEach resolve request admissible candidate rest

/-- What a slot does when no text was accepted: it stays empty if it may. -/
def leaveEmpty (slot : Slot) (pos : Nat) (ctx : Context V) : Step V :=
  if slot.nullable then (some pos, ctx.addValue none) else (none, ctx)

/-- Fills a slot at a position. -/
def fillSlot (m : Matcher V) (input : Text) (slot : Slot) (pos : Nat) (ctx : Context V) : Step V :=
  match m.resolver with
  | none => leaveEmpty slot pos ctx
  | some resolve =>
    if pos < input.length ∧ Text.startsBlank (input.drop pos) = false then
      let ways := Continuation.ofFollow ctx.follow
      if Continuation.anyUnknown ways then (none, ctx.setStuck)
      else
        let candidate (stop : Nat) : Text := (input.drop pos).take (stop - pos)
        let admissible (stop : Nat) : Bool :=
          !(candidate stop).endsBlank && Continuation.continues m.caseSensitive input stop ways
        let offered := offerEach resolve (.ofSlot slot ctx.depth) admissible candidate
          (charEnds pos (Text.frontList (input.drop pos)))
        let ctx := ctx.addOffers offered.1
        match offered.2 with
        | some (length, value) => (some (pos + length), ctx.addValue (some value))
        | none => leaveEmpty slot pos ctx
    else leaveEmpty slot pos ctx

/-! ### Regular expressions -/

/-- What a regular expression matches at a position. -/
def captureAt (finder : Option Regex.Finder) (input : Text) (pos : Nat) : Option Capture :=
  match finder with
  | none => none
  | some find => (find (input.drop pos)).map (Capture.ofFound pos)

/-! ### Nodes -/

mutual

/-- Matches a pattern at a position. -/
def run (m : Matcher V) (input : Text) (pattern : Pattern) (pos : Nat) (ctx : Context V) :
    Step V :=
  if input.length < pos then (none, ctx)
  else
    match pattern with
    | .text content =>
      (Piece.matchAt m.caseSensitive input (Piece.ofText content) pos, ctx)
    | .sequence children =>
      match runAll m input children pos ctx with
      | (some stop, after) => (some stop, after)
      | (none, after) => (none, after.restore ctx)
    | .optional child =>
      match run m input child pos ctx with
      | (some stop, after) => (some stop, after)
      | (none, after) => (some pos, after.restore ctx)
    | .choice alternatives => runBranches m input alternatives pos ctx
    | .regex _ finder =>
      match captureAt finder input pos with
      | some capture => (some (pos + capture.text.length), ctx.addCapture capture)
      | none => (none, ctx)
    | .slot s => fillSlot m input s pos ctx
    | .unknown _ => (none, ctx.setStuck)

/-- Matches the parts of a sequence one after the other. -/
def runAll (m : Matcher V) (input : Text) (patterns : List Pattern) (pos : Nat)
    (ctx : Context V) : Step V :=
  match patterns with
  | [] => (some pos, ctx)
  | p :: rest =>
    match run m input p pos (ctx.push rest) with
    | (some next, after) => runAll m input rest next after.pop
    | (none, after) => (none, after.pop)

/-- Matches the first branch that matches, and adds its mark. -/
def runBranches (m : Matcher V) (input : Text) (alternatives : List (Mark × Pattern)) (pos : Nat)
    (ctx : Context V) : Step V :=
  match alternatives with
  | [] => (none, ctx)
  | (mark, p) :: rest =>
    match run m input p pos ctx with
    | (some stop, after) => (some stop, after.addMark mark)
    | (none, after) => runBranches m input rest pos (after.restore ctx)

end

/-- Matches a pattern at an offset, which may lie outside the input. -/
def matchAt (m : Matcher V) (input : Text) (pattern : Pattern) (offset : Int) (ctx : Context V) :
    Step V :=
  if offset < 0 then (none, ctx) else m.run input pattern offset.toNat ctx

/-- Matches a pattern against the whole input, up to white space at its end. -/
def matchAll (m : Matcher V) (input : Text) (pattern : Pattern) (ctx : Context V) :
    Option (Outcome V) × Context V :=
  match m.run input pattern 0 ctx with
  | (some stop, after) =>
    if input.skipBlank stop = input.length then (some (after.outcome stop), after)
    else (none, after)
  | (none, after) => (none, after)

/-- Matches a pattern against the whole input in a context of its own. -/
def parse (m : Matcher V) (input : Text) (pattern : Pattern) : Option (Outcome V) :=
  (m.matchAll input pattern {}).1

end Matcher

end Phrasebook
