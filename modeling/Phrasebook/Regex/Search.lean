import Phrasebook.Regex.Node

/-!
# Searching with a regular expression

A tree is run from a position with what is to come after it as a continuation: the first way of
matching the tree whose continuation succeeds is taken, so failing later means trying the next way.
A repetition stops after a round that matched nothing, once it has made its least number of rounds;
this bounds the number of rounds by the length of the text.

The spans that slots recorded are kept as one list, the latest first: the latest span of a slot is
the first one in the list, and giving a span back removes it.
-/

namespace Phrasebook

namespace Regex

/-- What a slot recorded. -/
structure Span where
  /-- The number of the slot. -/
  slot : Nat
  /-- Where the span begins. -/
  start : Nat
  /-- Where it ends. -/
  stop : Nat
  deriving DecidableEq, Repr

/-- Where a run stands. -/
structure Place where
  /-- The position in the text. -/
  pos : Nat
  /-- The spans recorded, the latest first. -/
  spans : List Span
  deriving DecidableEq, Repr

namespace Place

/-- The latest span of a slot. -/
def latest? (p : Place) (slot : Nat) : Option Span :=
  p.spans.find? (·.slot == slot)

/-- Takes the latest span of a slot back. -/
def takeBack (p : Place) (slot : Nat) : Place :=
  { p with spans := p.spans.eraseP (·.slot == slot) }

/-- Records what lies between two positions. -/
def record (p : Place) (slot : Option Nat) (start stop : Nat) : Place :=
  match slot with
  | some n => { p with spans := ⟨n, start, stop⟩ :: p.spans }
  | none => p

/-- Records the span from `start` to `stop`. When a slot gives a span back for it, what is recorded
is the part between the two, or what they have in common. -/
def capture (p : Place) (slot takes : Option Nat) (start stop : Nat) : Option Place :=
  match takes with
  | none => some (p.record slot start stop)
  | some other =>
    match p.latest? other with
    | none => none
    | some old =>
      let (start, stop) :=
        if old.stop ≤ start then (old.stop, start)
        else if stop ≤ old.start then (old.start, stop)
        else (max start old.start, min stop old.stop)
      some ((p.takeBack other).record slot start stop)

end Place

/-- A text to search, as its characters. -/
abbrev Subject := Array Char

namespace Subject

/-- Whether the character at a position is a word character. -/
def isWordAt (t : Subject) (i : Nat) : Bool :=
  match t[i]? with
  | some c => isWordCode c.toNat
  | none => false

/-- Whether a condition holds at a position. -/
def satisfies (t : Subject) (pos : Nat) : Anchor → Bool
  | .textStart => pos == 0
  | .searchStart => pos == 0
  | .lineStart => pos == 0 || t[pos - 1]? == some '\n'
  | .textEnd => pos == t.size
  | .lastLineEnd => pos == t.size || (pos + 1 == t.size && t[pos]? == some '\n')
  | .lineEnd => pos == t.size || t[pos]? == some '\n'
  | .wordEdge => (pos != 0 && t.isWordAt (pos - 1)) != t.isWordAt pos
  | .noWordEdge => (pos != 0 && t.isWordAt (pos - 1)) == t.isWordAt pos

/-- The code point looked up in a set. -/
def codeAt (t : Subject) (ignoreCase : Bool) (i : Nat) : Option Nat :=
  t[i]?.map fun c => if ignoreCase then (Unicode.toLower c).toNat else c.toNat

/-- Whether the text at `a` and at `b` agrees for `length` characters. -/
def agrees (t : Subject) (ignoreCase : Bool) (a b : Nat) : Nat → Bool
  | 0 => true
  | length + 1 =>
    t.codeAt ignoreCase a == t.codeAt ignoreCase b && agrees t ignoreCase (a + 1) (b + 1) length

end Subject

/-- A way to go on from a place. -/
abbrev Continuation := Place → Option Place

/-- The rounds of a repetition. `count` rounds are made, the last of which began at `last`. -/
def rounds (eager : Bool) (least : Nat) (most : Option Nat)
    (body : Place → Continuation → Option Place) :
    Nat → Nat → Option Nat → Place → Continuation → Option Place
  | 0, _, _, _, _ => none
  | fuel + 1, count, last, p, k =>
    let again : Unit → Option Place := fun _ =>
      body p fun q => rounds eager least most body fuel (count + 1) (some p.pos) q k
    if count < least then again ()
    else if most.any (· ≤ count) || last == some p.pos then k p
    else if eager then (again ()).orElse fun _ => k p
    else (k p).orElse again

namespace Node

/-- Matches a tree from a place, and goes on with `k`. -/
def run (t : Subject) : Node → Place → Continuation → Option Place
  | .empty, p, k => k p
  | .one set ignoreCase false, p, k =>
    match t.codeAt ignoreCase p.pos with
    | some n => if CharSet.holds n set then k { p with pos := p.pos + 1 } else none
    | none => none
  | .one set ignoreCase true, p, k =>
    if p.pos = 0 then none
    else
      match t.codeAt ignoreCase (p.pos - 1) with
      | some n => if CharSet.holds n set then k { p with pos := p.pos - 1 } else none
      | none => none
  | .anchor a, p, k => if t.satisfies p.pos a then k p else none
  | .seq first second, p, k => run t first p fun q => run t second q k
  | .alt first second, p, k => (run t first p k).orElse fun _ => run t second p k
  | .capture slot takes body, p, k =>
    run t body p fun q =>
      match q.capture slot takes (min p.pos q.pos) (max p.pos q.pos) with
      | some r => k r
      | none => none
  | .repeated eager least most body, p, k =>
    rounds eager least most (run t body) (least + t.size + 2) 0 none p k
  | .look wanted body, p, k =>
    match run t body p some with
    | some q => if wanted then k { q with pos := p.pos } else none
    | none => if wanted then none else k p
  | .atomic body, p, k =>
    match run t body p some with
    | some q => k q
    | none => none
  | .backref slot ignoreCase backwards, p, k =>
    match p.latest? slot with
    | none => none
    | some span =>
      let length := span.stop - span.start
      if backwards then
        if length ≤ p.pos ∧ t.agrees ignoreCase span.start (p.pos - length) length then
          k { p with pos := p.pos - length }
        else none
      else if p.pos + length ≤ t.size ∧ t.agrees ignoreCase span.start p.pos length then
        k { p with pos := p.pos + length }
      else none
  | .ifSlot slot yes no, p, k =>
    if (p.latest? slot).isSome then run t yes p k else run t no p k
  | .ifLook condition yes no, p, k =>
    match run t condition p some with
    | some q => run t yes { q with pos := p.pos } k
    | none => run t no p k

end Node

/-- A group of a match. -/
structure Group where
  /-- The name it is reported under. -/
  name : Text
  /-- What it spans; nothing when it took no part. -/
  text : Text
  /-- Whether it took part in the match. -/
  participated : Bool
  deriving DecidableEq, Repr

/-- What a search found. -/
structure Found where
  /-- The groups in the order of their numbers; the first is the whole match. -/
  groups : List Group
  /-- The names of groups, each with whether it took part. -/
  named : List (Text × Bool)
  deriving DecidableEq, Repr

namespace Found

/-- Whether the group of a name took part in the match. -/
def participates (found : Found) (name : Text) : Bool :=
  (found.named.lookup name).getD false

end Found

namespace Program

/-- The first position from `start` on where the program matches. -/
def firstMatch (program : Program) (t : Subject) : Nat → Nat → Option Place
  | 0, _ => none
  | left + 1, start =>
    match program.root.run t ⟨start, []⟩ some with
    | some p => some p
    | none => firstMatch program t left (start + 1)

/-- The name a group is reported under, by its place among the groups. A place that is the number
of no group has no name. -/
def groupName (program : Program) (index : Nat) : Text :=
  if program.slots.hasNumber index then
    match program.slots.names.find? (·.2 == index) with
    | some (name, _) => name
    | none => Text.ofNat index
  else []

/-- Searches a text for the first match. -/
def find (program : Program) (text : Text) : Option Found :=
  let t : Subject := text.chars.toArray
  (program.firstMatch t (t.size + 1) 0).map fun p =>
    { groups := program.slots.numbers.zipIdx.map fun (number, index) =>
        let span := p.latest? number
        { name := program.groupName index
          text := match span with
            | some s => Text.ofChars (t.extract s.start s.stop).toList
            | none => []
          participated := span.isSome }
      named := program.slots.names.map fun (name, number) =>
        (name, (p.latest? number).isSome) }

end Program

end Regex

end Phrasebook
