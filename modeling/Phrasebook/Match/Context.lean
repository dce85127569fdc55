import Phrasebook.Pattern

/-!
# What a match attempt keeps

A context collects the values that fill slots, the captures of regular expressions and the marks of
choices while a pattern is matched. It can be brought back to a former point: values and captures
are cut to the number they had, and the mark is put back. It also knows the nesting level of the
attempt and what is still to be matched after the node at hand, and it keeps a record of all texts
that were offered to the resolver, which nothing takes back.
-/

namespace Phrasebook

/-- What an embedded regular expression matched. -/
structure Capture where
  /-- Where in the input it was tried. -/
  offset : Nat
  /-- The texts of its groups; group 0 is the whole match, and a group that took no part is empty. -/
  groups : List Text
  /-- The names of groups that have one, with their places among the groups. -/
  names : List (Text × Nat)
  deriving DecidableEq, Repr

namespace Capture

/-- The whole matched text. -/
def text (c : Capture) : Text :=
  c.groups.head?.getD []

/-- The text of a named group; of two groups of one name the later counts. -/
def named? (c : Capture) (name : Text) : Option Text :=
  (c.names.reverse.lookup name).map fun index => c.groups[index]?.getD []

/-- What was found by an expression that was tried at an offset. -/
def ofFound (offset : Nat) (found : Regex.Found) : Capture where
  offset := offset
  groups := found.groups.map (·.text)
  names := found.groups.zipIdx.filterMap fun (group, index) =>
    if group.name = Text.ofNat index then none else some (group.name, index)

end Capture

/-- What a slot asks of the text that is offered to it. -/
structure Request where
  /-- The types the slot accepts. -/
  types : List TypeRef
  /-- Whether it may stay empty. -/
  nullable : Bool
  /-- What may fill it. -/
  acceptance : Acceptance
  /-- When its value is read. -/
  tense : Tense
  /-- The nesting level of the attempt. -/
  depth : Int

namespace Request

/-- The request of a slot at a nesting level. -/
def ofSlot (slot : Slot) (depth : Int) : Request :=
  ⟨slot.types, slot.nullable, slot.acceptance, slot.tense, depth⟩

/-- The number in which a slot accepts values of a type, if it accepts them. -/
def accepts? (request : Request) (name : Text) : Option Bool :=
  (request.types.find? fun ref => ref.name? == some name).map (·.single)

end Request

/-- What a resolver makes of a text. -/
structure Resolution (V : Type) where
  /-- How many bytes of the text were used; a number that is no length within it means all. -/
  length : Int
  /-- The value. -/
  value : V

namespace Resolution

/-- The bytes used of a text of this length. -/
def lengthWithin {V : Type} (r : Resolution V) (size : Nat) : Nat :=
  if 0 < r.length ∧ r.length ≤ size then r.length.toNat else size

end Resolution

/-- Turns texts that are offered to slots into values. -/
abbrev Resolver (V : Type) := Text → Request → Option (Resolution V)

/-- A text that was offered to the resolver. -/
structure Offer where
  /-- The text. -/
  text : Text
  /-- What the slot asked. -/
  request : Request
  /-- Whether the resolver took it. -/
  accepted : Bool

/-- The state of a match attempt. -/
structure Context (V : Type) where
  /-- The values of the slots passed so far; an empty slot has none. -/
  values : List (Option V) := []
  /-- The captures of the regular expressions passed so far. -/
  captures : List Capture := []
  /-- The marks of the branches taken so far, combined. -/
  mark : Mark := 0
  /-- The nesting level. -/
  depth : Int := 0
  /-- What is still to be matched after the node at hand in each enclosing sequence, the innermost
  first. -/
  follow : List (List Pattern) := []
  /-- The texts offered to the resolver, in order. -/
  offers : List Offer := []
  /-- Whether a node of an unknown kind was met. -/
  stuck : Bool := false

/-- The outcome of a successful match. -/
structure Outcome (V : Type) where
  /-- Where the match stopped. -/
  stop : Int
  /-- The marks of the branches taken, combined. -/
  mark : Mark
  /-- The value of each slot passed, in order. -/
  values : List (Option V)
  /-- The capture of each regular expression passed, in order. -/
  captures : List Capture

namespace Context

variable {V : Type}

/-- A context for a new attempt at the same nesting level. -/
def reset (ctx : Context V) : Context V :=
  { depth := ctx.depth }

/-- Combines a mark into the mark so far. -/
def addMark (ctx : Context V) (mark : Mark) : Context V :=
  { ctx with mark := ctx.mark ^^^ mark }

/-- Brings the context back to what it had collected at a former point. -/
def restore (ctx former : Context V) : Context V :=
  { ctx with
    values := ctx.values.take former.values.length
    captures := ctx.captures.take former.captures.length
    mark := former.mark }

/-- Enters a node of a sequence that these nodes follow. -/
def push (ctx : Context V) (siblings : List Pattern) : Context V :=
  { ctx with follow := siblings :: ctx.follow }

/-- Leaves a node of a sequence. -/
def pop (ctx : Context V) : Context V :=
  { ctx with follow := ctx.follow.tail }

/-- Adds the value of a slot. -/
def addValue (ctx : Context V) (value : Option V) : Context V :=
  { ctx with values := ctx.values ++ [value] }

/-- Adds a capture. -/
def addCapture (ctx : Context V) (capture : Capture) : Context V :=
  { ctx with captures := ctx.captures ++ [capture] }

/-- Adds texts to the record of offers. -/
def addOffers (ctx : Context V) (offers : List Offer) : Context V :=
  { ctx with offers := ctx.offers ++ offers }

/-- Notes that a node of an unknown kind was met. -/
def setStuck (ctx : Context V) : Context V :=
  { ctx with stuck := true }

/-- What was collected, as the outcome of a match that stopped here. -/
def outcome (ctx : Context V) (stop : Int) : Outcome V :=
  ⟨stop, ctx.mark, ctx.values, ctx.captures⟩

end Context

end Phrasebook
