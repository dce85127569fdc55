import Phrasebook.Regex.Escape
import Phrasebook.Regex.Node

/-!
# Reading a regular expression

A source is read twice. The first reading, `Slots.ofSource`, only finds the groups that record
something: groups without a name are numbered in order, groups with a number keep it, and the names
take the numbers that are left. The second reading builds the tree with a stack of the groups that
are still open.

Options such as `(?i)` hold from where they stand to the end of the group around them.
-/

namespace Phrasebook

namespace Regex

/-- The options a part of a source is read under. -/
structure Options where
  /-- Letters match in either case. -/
  ignoreCase : Bool := false
  /-- `^` and `$` match at every line. -/
  multiline : Bool := false
  /-- Groups without a name record nothing. -/
  namedOnly : Bool := false
  /-- A dot matches a newline too. -/
  dotAll : Bool := false
  /-- Blanks and comments in the source are passed over. -/
  extended : Bool := false
  /-- The part is read backwards, from its end. -/
  backwards : Bool := false
  deriving DecidableEq, Repr

namespace Options

/-- Sets, or clears, the option a letter stands for; `none` if it stands for none. -/
def set? (options : Options) (letter : Nat) (value : Bool) : Option Options :=
  let lower := if 65 ≤ letter ∧ letter ≤ 90 then letter + 32 else letter
  if lower = code 'i' then some { options with ignoreCase := value }
  else if lower = code 'm' then some { options with multiline := value }
  else if lower = code 'n' then some { options with namedOnly := value }
  else if lower = code 's' then some { options with dotAll := value }
  else if lower = code 'x' then some { options with extended := value }
  else if lower = code 'd' ∨ lower = code 'u' then some options
  else none

/-- Option letters, with signs that switch between setting and clearing. -/
def read (options : Options) (value : Bool) : List Nat → Options × List Nat
  | [] => (options, [])
  | c :: rest =>
    if c = 0x2D then read options false rest
    else if c = 0x2B then read options true rest
    else
      match options.set? c value with
      | some next => read next value rest
      | none => (options, c :: rest)

end Options

/-- Whether a comment group begins here. -/
def startsComment : List Nat → Bool
  | 0x28 :: 0x3F :: 0x23 :: _ => true
  | _ => false

/-- Blanks of a source. -/
def isSourceBlank (n : Nat) : Bool :=
  n == 0x20 || (9 ≤ n && n ≤ 13)

/-- Passes over comments and, in an extended source, over blanks. -/
def skipBlanks (extended : Bool) : Nat → List Nat → Except Error (List Nat)
  | 0, s => .ok s
  | fuel + 1, s =>
    let s := if extended then s.dropWhile isSourceBlank else s
    match s with
    | [] => .ok []
    | c :: _ =>
      if extended ∧ c = 0x23 then
        skipBlanks extended fuel (s.dropWhile (· ≠ 10))
      else if startsComment s then
        match s.dropWhile (· ≠ 0x29) with
        | [] => .error .unterminatedComment
        | _ :: rest => skipBlanks extended fuel rest
      else .ok s

/-- Passes over what has no meaning at this place. -/
def Options.skip (options : Options) (s : List Nat) : Except Error (List Nat) :=
  skipBlanks options.extended (s.length + 1) s

/-! ### Finding the slots -/

/-- What is known of the slots while a source is read for the first time. -/
structure SlotScan where
  /-- The options in force. -/
  options : Options := {}
  /-- The options outside each open group. -/
  outer : List Options := []
  /-- The number of the next group without a name. -/
  next : Nat := 1
  /-- Whether the next parenthesis is a condition. -/
  condition : Bool := false
  /-- The numbers in use. -/
  numbers : List Nat := [0]
  /-- The names, in order. -/
  names : List Text := []

namespace SlotScan

/-- Notes that a number is in use. -/
def addNumber (scan : SlotScan) (n : Nat) : SlotScan :=
  if scan.numbers.contains n then scan else { scan with numbers := scan.numbers ++ [n] }

/-- Notes that a name is in use. -/
def addName (scan : SlotScan) (name : Text) : SlotScan :=
  if scan.names.contains name then scan else { scan with names := scan.names ++ [name] }

/-- What an opening parenthesis, which is read, tells about the slots. -/
def openGroup (scan : SlotScan) (rest : List Nat) : Except Error (SlotScan × List Nat) :=
  let pushed := { scan with outer := scan.options :: scan.outer }
  match rest with
  | 0x3F :: rest =>
    let named (rest : List Nat) : Except Error (SlotScan × List Nat) :=
      match rest with
      | c :: _ =>
        if c = 48 ∨ ¬ isWordCode c then .ok ({ pushed with condition := false }, rest)
        else if isDigitCode c then do
          let (n, rest) ← readNumber 0 rest
          .ok ({ (pushed.addNumber n) with condition := false }, rest)
        else
          let (name, rest) := readName rest
          .ok ({ (pushed.addName (textOf name)) with condition := false }, rest)
      | [] => .ok ({ pushed with condition := false }, rest)
    let plain : SlotScan × List Nat :=
      let (options, rest) := Options.read pushed.options true rest
      let scan := { pushed with options := options }
      match rest with
      | 0x29 :: rest => ({ scan with outer := scan.outer.drop 1, condition := false }, rest)
      | 0x28 :: _ => ({ scan with condition := true }, rest)
      | _ => ({ scan with condition := false }, rest)
    match rest with
    | 0x3C :: more@(_ :: _) => named more
    | 0x27 :: more@(_ :: _) => named more
    | _ => .ok plain
  | _ =>
    if scan.options.namedOnly ∨ scan.condition then .ok ({ pushed with condition := false }, rest)
    else .ok ({ (pushed.addNumber pushed.next) with next := pushed.next + 1, condition := false },
      rest)

/-- Reads a whole source for its slots. -/
def run : Nat → SlotScan → List Nat → Except Error SlotScan
  | 0, scan, _ => .ok scan
  | _ + 1, scan, [] => .ok scan
  | fuel + 1, scan, c :: rest =>
    if c = 0x5C then
      match rest with
      | 0x63 :: more => run fuel scan (more.drop 1)
      | _ => run fuel scan (rest.drop 1)
    else if c = 0x23 ∧ scan.options.extended then run fuel scan (rest.dropWhile (· ≠ 10))
    else if c = 0x5B then
      match readSet false rest with
      | .ok (_, after) => run fuel scan after
      | .error _ => run fuel scan rest
    else if c = 0x29 then
      match scan.outer with
      | options :: outer => run fuel { scan with options := options, outer := outer } rest
      | [] => run fuel scan rest
    else if startsComment (c :: rest) then run fuel scan ((rest.dropWhile (· ≠ 0x29)).drop 1)
    else if c = 0x28 then do
      let (scan, rest) ← scan.openGroup rest
      run fuel scan rest
    else run fuel scan rest

/-- The first number at or above `n` that is not in use. -/
def freeFrom (numbers : List Nat) : Nat → Nat → Nat
  | 0, n => n
  | fuel + 1, n => if numbers.contains n then freeFrom numbers fuel (n + 1) else n

/-- Gives each name a number, from `next` on. -/
def assign (numbers : List Nat) (next : Nat) : List Text → List Nat × List (Text × Nat)
  | [] => (numbers, [])
  | name :: rest =>
    let n := freeFrom numbers (numbers.length + 1) next
    let (all, named) := assign (numbers ++ [n]) (n + 1) rest
    (all, (name, n) :: named)

end SlotScan

/-- The slots of a source. -/
def Slots.ofSource (s : List Nat) : Except Error Slots := do
  let scan ← SlotScan.run (s.length + 1) {} s
  let (numbers, names) := SlotScan.assign scan.numbers scan.next scan.names
  .ok ⟨numbers.mergeSort (· ≤ ·), names⟩

/-! ### Building the tree -/

/-- What an open group will become. -/
inductive Opening where
  /-- Records a span, and may take one back. -/
  | capture (slot takes : Option Nat)
  /-- Only groups. -/
  | plain
  /-- Looks ahead or behind. -/
  | look (wanted : Bool)
  /-- Commits to the first way it matches. -/
  | atomic
  /-- Chooses by a slot. -/
  | ifSlot (slot : Nat)
  /-- Chooses by a condition, which is its first part. -/
  | ifLook
  deriving DecidableEq, Repr

/-- A group whose end is still to come. -/
structure Frame where
  /-- What it will become. -/
  opening : Opening
  /-- Its finished alternatives, the last first. -/
  done : List Node := []
  /-- The parts of its current alternative, the last first. -/
  items : List Node := []
  /-- The options outside it. -/
  outer : Options := {}

/-- The state of the second reading. -/
structure Build where
  /-- What is still to be read. -/
  rest : List Nat
  /-- The options in force. -/
  options : Options := {}
  /-- The number of the next group without a name. -/
  next : Nat := 1
  /-- Whether the next group without a name only groups, being a condition. -/
  condition : Bool := false
  /-- The innermost open group. -/
  frame : Frame
  /-- The open groups around it, innermost first. -/
  around : List Frame := []
  /-- Whether the last thing read was a repetition. -/
  repeated : Bool := false

namespace Build

/-- The characters that end a run of ordinary ones. -/
def isSpecial (n : Nat) : Bool :=
  "\\*+?|\x7b[()^$.".toList.any fun c => c.toNat == n

/-- Whether a repetition begins here. -/
def startsRepetition : List Nat → Bool
  | 0x2A :: _ => true
  | 0x2B :: _ => true
  | 0x3F :: _ => true
  | 0x7B :: rest =>
    match rest.span isDigitCode with
    | ([], _) => false
    | (_, 0x7D :: _) => true
    | (_, 0x2C :: more) =>
      match more.dropWhile isDigitCode with
      | 0x7D :: _ => true
      | _ => false
    | _ => false
  | _ => false

/-- The ordinary characters that begin a source. -/
def ordinary (extended : Bool) : List Nat → List Nat × List Nat
  | [] => ([], [])
  | c :: rest =>
    let stops := if c = 0x7B then startsRepetition (c :: rest)
      else isSpecial c || (extended && (isSourceBlank c || c == 0x23))
    if stops then ([], c :: rest)
    else
      let (more, after) := ordinary extended rest
      (c :: more, after)

/-- The tree of one character. -/
def char (options : Options) (n : Nat) : Node :=
  let n := if options.ignoreCase then
      let lower := (Unicode.toLower (Char.ofNat n)).toNat
      if lower = 0 then n else lower
    else n
  .one (CharSet.single n) options.ignoreCase options.backwards

/-- The current alternative of the innermost group as one tree. -/
def alternative (b : Build) : Node :=
  Node.ofList (if b.options.backwards then b.frame.items else b.frame.items.reverse)

/-- Adds a part to the current alternative. -/
def add (b : Build) (node : Node) : Build :=
  { b with frame := { b.frame with items := node :: b.frame.items } }

/-- The innermost group as a tree, its end being reached. -/
def close (b : Build) : Except Error Node :=
  let parts := (b.alternative :: b.frame.done).reverse
  match b.frame.opening with
  | .capture slot takes => .ok (.capture slot takes (Node.ofAlternatives parts))
  | .plain => .ok (Node.ofAlternatives parts)
  | .look wanted => .ok (.look wanted (Node.ofAlternatives parts))
  | .atomic => .ok (.atomic (Node.ofAlternatives parts))
  | .ifSlot slot =>
    match parts with
    | [yes] => .ok (.ifSlot slot yes .empty)
    | [yes, no] => .ok (.ifSlot slot yes no)
    | _ => .error .tooManyBranches
  | .ifLook =>
    match parts with
    | [condition] => .ok (.ifLook condition .empty .empty)
    | [condition, yes] => .ok (.ifLook condition yes .empty)
    | [condition, yes, no] => .ok (.ifLook condition yes no)
    | _ => .error .tooManyBranches

/-- The part of a group's name after a minus sign: the slot that gives its last span back. -/
def takesOf (slots : Slots) (closing : Nat) (s : List Nat) :
    Except Error (Option Nat × List Nat) := do
  match s with
  | [] => .error .invalidGroupName
  | c :: _ =>
    let (n, rest) ←
      if isDigitCode c then do
        let (n, rest) ← readNumber 0 s
        if slots.hasNumber n then pure (n, rest) else .error (.undefinedNumber n)
      else if isWordCode c then
        let (name, rest) := readName s
        match slots.numberOf? (textOf name) with
        | some n => pure (n, rest)
        | none => .error (.undefinedName (textOf name))
      else .error .invalidGroupName
    match rest with
    | [] => .ok (some n, rest)
    | d :: _ => if d = closing then .ok (some n, rest) else .error .invalidGroupName

/-- A group with a name or a number, after its opening bracket; `none` if it is no group at all,
with what was read of it. -/
def openNamed (slots : Slots) (closing : Nat) (s : List Nat) :
    Except Error (Option Opening × List Nat) := do
  match s with
  | [] => .ok (none, s)
  | c :: _ =>
    let (slot, rest) ←
      if isDigitCode c then do
        let (n, rest) ← readNumber 0 s
        let slot := if slots.hasNumber n then some n else none
        match rest with
        | d :: _ =>
          if d ≠ closing ∧ d ≠ 0x2D then throw .invalidGroupName
        | [] => pure ()
        if slot = some 0 then throw .zeroGroup
        pure (slot, rest)
      else if isWordCode c then
        let (name, rest) := readName s
        match rest with
        | d :: _ =>
          if d ≠ closing ∧ d ≠ 0x2D then throw .invalidGroupName
        | [] => pure ()
        pure (slots.numberOf? (textOf name), rest)
      else if c = 0x2D then pure (none, s)
      else throw .invalidGroupName
    let (takes, rest) ←
      match rest with
      | 0x2D :: more =>
        if slot.isSome ∨ c = 0x2D then takesOf slots closing more else pure (none, rest)
      | _ => pure (none, rest)
    if slot.isNone ∧ takes.isNone then
      .ok (none, rest)
    else
      match rest with
      | [] => .ok (none, rest)
      | d :: after =>
        .ok (if d = closing then some (.capture slot takes) else none, after)

/-- A conditional, after its two opening parentheses; `inner` begins with the second. -/
def openConditional (slots : Slots) (inner : List Nat) :
    Except Error (Opening × List Nat) := do
  let general : Except Error (Opening × List Nat) :=
    match inner with
    | _ :: 0x3F :: 0x23 :: _ => .error .commentCondition
    | _ :: 0x3F :: 0x27 :: _ => .error .capturingCondition
    | _ :: 0x3F :: 0x3C :: d :: _ =>
      if d ≠ 0x21 ∧ d ≠ 0x3D then .error .capturingCondition else .ok (.ifLook, inner)
    | _ => .ok (.ifLook, inner)
  match inner.drop 1 with
  | [] => general
  | c :: more =>
    if isDigitCode c then do
      let (n, rest) ← readNumber 0 (c :: more)
      match rest with
      | 0x29 :: rest =>
        if slots.hasNumber n then .ok (.ifSlot n, rest) else .error (.undefinedCondition n)
      | _ => .error (.malformedCondition n)
    else if isWordCode c then
      let (name, rest) := readName (c :: more)
      match slots.numberOf? (textOf name), rest with
      | some n, 0x29 :: rest => .ok (.ifSlot n, rest)
      | _, _ => general
    else general

/-- Enters a group. -/
def enter (b : Build) (outer : Options) (opening : Opening) : Build :=
  { b with
    frame := { opening := opening, outer := outer }
    around := b.frame :: b.around }

/-- What an opening parenthesis, which is read, begins. -/
def openGroup (slots : Slots) (b : Build) : Except Error Build := do
  let outer := b.options
  let s := b.rest
  let unrecognized (rest : List Nat) : Except Error Build :=
    .error (.unrecognizedGrouping (textOf (s.take (s.length - rest.length))))
  let unnamed : Build :=
    if b.options.namedOnly ∨ b.condition then
      { b with condition := false }.enter outer .plain
    else
      { b with next := b.next + 1 }.enter outer (.capture (some b.next) none)
  let named (closing : Nat) (rest : List Nat) : Except Error Build := do
    match ← openNamed slots closing rest with
    | (some opening, rest) => .ok ({ b with rest := rest }.enter outer opening)
    | (none, rest) => unrecognized rest
  match s with
  | 0x3F :: 0x29 :: _ => .ok unnamed
  | 0x3F :: rest =>
    match rest with
    | [] => unrecognized rest
    | 0x3A :: rest => .ok ({ b with rest := rest }.enter outer .plain)
    | 0x3D :: rest =>
      .ok ({ b with rest := rest, options := { b.options with backwards := false } }.enter outer
        (.look true))
    | 0x21 :: rest =>
      .ok ({ b with rest := rest, options := { b.options with backwards := false } }.enter outer
        (.look false))
    | 0x3E :: rest => .ok ({ b with rest := rest }.enter outer .atomic)
    | 0x27 :: rest =>
      match rest with
      | 0x3D :: after => unrecognized after
      | 0x21 :: after => unrecognized after
      | _ => named 0x27 rest
    | 0x3C :: rest =>
      match rest with
      | 0x3D :: rest =>
        .ok ({ b with rest := rest, options := { b.options with backwards := true } }.enter outer
          (.look true))
      | 0x21 :: rest =>
        .ok ({ b with rest := rest, options := { b.options with backwards := true } }.enter outer
          (.look false))
      | _ => named 0x3E rest
    | 0x28 :: _ => do
      let (opening, rest) ← openConditional slots rest
      .ok ({ b with rest := rest, condition := opening == Opening.ifLook || b.condition }.enter outer
        opening)
    | _ =>
      let (options, rest) :=
        if b.frame.opening = .ifLook then (b.options, rest) else b.options.read true rest
      match rest with
      | [] => unrecognized rest
      | 0x29 :: rest => .ok { b with rest := rest, options := options }
      | 0x3A :: rest => .ok ({ b with rest := rest, options := options }.enter outer .plain)
      | _ :: after => unrecognized after
  | _ => .ok unnamed

/-- A backreference or an escaped character, after the backslash. -/
def readReference (slots : Slots) (options : Options) (s : List Nat) :
    Except Error (Node × List Nat) := do
  let backref (n : Nat) : Node := .backref n options.ignoreCase options.backwards
  let literal : Except Error (Node × List Nat) := do
    let (n, rest) ← readEscape s
    .ok (char options n, rest)
  let bracketed (required : Bool) (closing : Nat) (inner : List Nat) :
      Except Error (Node × List Nat) := do
    match inner with
    | [] => if required then .error .malformedNameReference else literal
    | c :: _ =>
      if isDigitCode c then
        let (n, rest) ← readNumber 0 inner
        match rest with
        | d :: rest =>
          if d = closing then
            if slots.hasNumber n then .ok (backref n, rest) else .error (.undefinedNumber n)
          else literal
        | [] => literal
      else
        let (name, rest) := readName inner
        match name, rest with
        | _ :: _, d :: rest =>
          if d = closing then
            match slots.numberOf? (textOf name) with
            | some n => .ok (backref n, rest)
            | none => .error (.undefinedName (textOf name))
          else if required then .error .malformedNameReference
          else literal
        | _, _ => if required then .error .malformedNameReference else literal
  match s with
  | [] => .error .trailingBackslash
  | c :: rest =>
    if c = code 'k' then
      match rest with
      | 0x3C :: inner => bracketed true 0x3E inner
      | 0x27 :: inner => bracketed true 0x27 inner
      | _ => .error .malformedNameReference
    else if c = 0x3C ∧ rest ≠ [] then bracketed false 0x3E rest
    else if c = 0x27 ∧ rest ≠ [] then bracketed false 0x27 rest
    else if 49 ≤ c ∧ c ≤ 57 then
      let (n, after) ← readNumber 0 s
      if slots.hasNumber n then .ok (backref n, after)
      else if n ≤ 9 then .error (.undefinedNumber n)
      else literal
    else literal

/-- What a backslash, which is read, begins. -/
def readBackslash (slots : Slots) (options : Options) (s : List Nat) :
    Except Error (Node × List Nat) := do
  let set (set : CharSet) (rest : List Nat) : Except Error (Node × List Nat) :=
    .ok (.one set options.ignoreCase options.backwards, rest)
  match s with
  | [] => .error .trailingBackslash
  | c :: rest =>
    if c = code 'b' then .ok (.anchor .wordEdge, rest)
    else if c = code 'B' then .ok (.anchor .noWordEdge, rest)
    else if c = code 'A' then .ok (.anchor .textStart, rest)
    else if c = code 'G' then .ok (.anchor .searchStart, rest)
    else if c = code 'Z' then .ok (.anchor .lastLineEnd, rest)
    else if c = code 'z' then .ok (.anchor .textEnd, rest)
    else if c = code 'w' then set (CharSet.ofClass .word false) rest
    else if c = code 'W' then set (CharSet.ofClass .word true) rest
    else if c = code 's' then set (CharSet.ofClass .blank false) rest
    else if c = code 'S' then set (CharSet.ofClass .blank true) rest
    else if c = code 'd' then set (CharSet.ofClass (.category "Nd") false) rest
    else if c = code 'D' then set (CharSet.ofClass (.category "Nd") true) rest
    else if c = code 'p' ∨ c = code 'P' then
      let (cls, rest) ← readClass rest
      set [CharLayer.empty.addNamed cls (c == code 'P') options.ignoreCase] rest
    else readReference slots options s

/-- The counts of a repetition that begins here. -/
def readRepetition (s : List Nat) : Except Error (Nat × Option Nat × List Nat) := do
  match s with
  | 0x2A :: rest => .ok (0, none, rest)
  | 0x2B :: rest => .ok (1, none, rest)
  | 0x3F :: rest => .ok (0, some 1, rest)
  | _ =>
    let (least, rest) ← readNumber 0 (s.drop 1)
    match rest with
    | 0x2C :: 0x7D :: rest => .ok (least, none, rest)
    | 0x2C :: rest =>
      let (most, rest) ← readNumber 0 rest
      .ok (least, if most = maxNumber then none else some most, rest.drop 1)
    | _ => .ok (least, if least = maxNumber then none else some least, rest.drop 1)

/-- Adds a unit to the current alternative, with the repetition that follows it if there is one. -/
def addUnit (b : Build) (unit : Node) : Except Error Build := do
  let rest ← b.options.skip b.rest
  if startsRepetition rest then
    let (least, most, rest) ← readRepetition rest
    let rest ← b.options.skip rest
    let (eager, rest) := match rest with
      | 0x3F :: rest => (false, rest)
      | _ => (true, rest)
    if most.any (· < least) then throw .invalidRepeatCount
    let node := if most = some 0 then .empty
      else if least = 1 ∧ most = some 1 then unit
      else .repeated eager least most unit
    .ok { (b.add node) with rest := rest, repeated := true }
  else .ok { (b.add unit) with rest := rest, repeated := false }

/-- Leaves the innermost group, whose closing parenthesis is read. -/
def leave (b : Build) : Except Error Build := do
  match b.around with
  | [] => .error .unexpectedParen
  | frame :: around =>
    let node ← b.close
    let b := { b with options := b.frame.outer, frame := frame, around := around }
    if frame.opening = .ifLook ∧ frame.done.isEmpty then
      .ok { b with frame := { frame with done := [node] }, repeated := false }
    else b.addUnit node

/-- Ends the current alternative. -/
def alternate (b : Build) : Build :=
  { b with frame := { b.frame with done := b.alternative :: b.frame.done, items := [] } }

/-- Reads the next part of the source: a run of ordinary characters and the special one that ends
it. -/
def step (slots : Slots) (b : Build) : Except Error Build := do
  let start ← b.options.skip b.rest
  let (plain, rest) := ordinary b.options.extended start
  let rest := match b.options.skip rest with
    | .ok rest => rest
    | .error _ => []
  let addAll (b : Build) (chars : List Nat) : Build :=
    chars.foldl (fun b n => b.add (char b.options n)) b
  let afterRepetition := b.repeated && plain.isEmpty
  let plainDone := { (addAll b plain) with rest := rest, repeated := false }
  match rest with
  | [] => .ok plainDone
  | c :: more =>
    if startsRepetition [c] ∨ c = 0x7B then
      match plain.getLast? with
      | some n =>
        addUnit { (addAll b plain.dropLast) with rest := rest, repeated := false }
          (char b.options n)
      | none =>
        if afterRepetition then .error .nestedRepetition else .error .missingRepeatArgument
    else if ¬ isSpecial c then .ok plainDone
    else
      let b := { plainDone with rest := more }
      if c = 0x5B then
        let (set, rest) ← readSet b.options.ignoreCase more
        addUnit { b with rest := rest } (.one set b.options.ignoreCase b.options.backwards)
      else if c = 0x28 then openGroup slots b
      else if c = 0x7C then .ok b.alternate
      else if c = 0x29 then b.leave
      else if c = 0x5C then
        let (node, rest) ← readBackslash slots b.options more
        addUnit { b with rest := rest } node
      else if c = 0x5E then
        b.addUnit (.anchor (if b.options.multiline then .lineStart else .textStart))
      else if c = 0x24 then
        b.addUnit (.anchor (if b.options.multiline then .lineEnd else .lastLineEnd))
      else
        let set := if b.options.dotAll then CharSet.all else CharSet.allBut 10
        b.addUnit (.one set b.options.ignoreCase b.options.backwards)

/-- Reads the rest of the source. -/
def run (slots : Slots) : Nat → Build → Except Error Build
  | 0, b => .ok b
  | fuel + 1, b =>
    if b.rest.isEmpty then .ok b
    else do
      let b ← b.step slots
      run slots fuel b

end Build

/-- The program of a source. -/
def compile (source : Text) : Except Error Program := do
  let s := source.chars.map Char.toNat
  let slots ← Slots.ofSource s
  let start : Build := { rest := s, frame := { opening := .capture (some 0) none } }
  let b ← start.run slots (2 * s.length + 2)
  if ¬ b.around.isEmpty then .error .missingParen
  else
    let root ← b.close
    .ok ⟨root, slots⟩

end Regex

end Phrasebook
