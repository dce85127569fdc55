import Phrasebook.Pattern.Slot

/-!
# Compiling patterns

A pattern is read from left to right into a list of items: square brackets hold an optional part,
round brackets a choice, angle brackets a regular expression and percent signs a slot; a backslash
makes the next byte literal, and what lies between is literal text. A group runs to the bracket that
balances its own kind of bracket, and its inside is compiled in the same way.

No item is an empty text, and no two neighbours are both text. A list of one item is that item, and
the empty list is the empty text.
-/

namespace Phrasebook

namespace Pattern

/-! ### Groups -/

/-- The text up to the bracket that closes a group, and what follows it. `depth` counts the brackets
of the same kind that were opened inside. -/
def enclosed (opening closing : UInt8) (depth : Nat) : Text → Option (Text × Text)
  | [] => none
  | c :: rest =>
    if c = 0x5C then
      match rest with
      | [] => none
      | d :: rest =>
        (enclosed opening closing depth rest).map fun (inner, after) => (c :: d :: inner, after)
    else if c = closing then
      match depth with
      | 0 => some ([], rest)
      | depth + 1 =>
        (enclosed opening closing depth rest).map fun (inner, after) => (c :: inner, after)
    else if c = opening then
      (enclosed opening closing (depth + 1) rest).map fun (inner, after) => (c :: inner, after)
    else (enclosed opening closing depth rest).map fun (inner, after) => (c :: inner, after)

/-- A group, its closing bracket and what follows make up the text. -/
theorem enclosed_eq {opening closing : UInt8} {depth : Nat} {t inner after : Text}
    (h : enclosed opening closing depth t = some (inner, after)) :
    t = inner ++ closing :: after := by
  fun_induction enclosed opening closing depth t generalizing inner after <;>
    simp_all [Option.map_eq_some_iff, Prod.exists]
  all_goals
    obtain ⟨a, b, he, rfl, rfl⟩ := h
    simp_all

theorem enclosed_length {opening closing : UInt8} {depth : Nat} {t inner after : Text}
    (h : enclosed opening closing depth t = some (inner, after)) :
    inner.length + after.length + 1 = t.length := by
  rw [enclosed_eq h]
  simp
  omega

/-- Puts bytes in front of the first of several pieces. -/
def extendFirst (front : Text) : List Text → List Text
  | [] => [front]
  | piece :: pieces => (front ++ piece) :: pieces

/-- Whether a byte opens a group of brackets. -/
def isOpening (c : UInt8) : Bool :=
  c == 0x28 || c == 0x5B || c == 0x3C

/-- Whether a byte closes a group of brackets. -/
def isClosing (c : UInt8) : Bool :=
  c == 0x29 || c == 0x5D || c == 0x3E

/-- The branches of a choice: the pieces between the bars that stand in no bracket, `depth` being
the number of brackets that are open. -/
def branches (depth : Nat) : Text → List Text
  | [] => [[]]
  | c :: rest =>
    if c = 0x5C then
      match rest with
      | [] => [[c]]
      | d :: rest => extendFirst [c, d] (branches depth rest)
    else if isOpening c then extendFirst [c] (branches (depth + 1) rest)
    else if isClosing c then extendFirst [c] (branches (depth - 1) rest)
    else if c = 0x7C ∧ depth = 0 then [] :: branches 0 rest
    else extendFirst [c] (branches depth rest)

/-- The bytes of several pieces, with one more for each. -/
def piecesSize : List Text → Nat
  | [] => 0
  | p :: ps => p.length + 1 + piecesSize ps

@[simp]
theorem piecesSize_nil : piecesSize [] = 0 := rfl

@[simp]
theorem piecesSize_cons (p : Text) (ps : List Text) :
    piecesSize (p :: ps) = p.length + 1 + piecesSize ps := rfl

theorem piecesSize_extendFirst (front : Text) {ps : List Text} (h : ps ≠ []) :
    piecesSize (extendFirst front ps) = front.length + piecesSize ps := by
  cases ps with
  | nil => exact absurd rfl h
  | cons p ps => simp [extendFirst]; omega

theorem branches_ne_nil (depth : Nat) (t : Text) : branches depth t ≠ [] := by
  have extend (front : Text) (ps : List Text) : extendFirst front ps ≠ [] := by
    cases ps <;> simp [extendFirst]
  fun_cases branches depth t <;> simp [extend]

/-- The branches with the bars between them are as long as the choice. -/
theorem piecesSize_branches (depth : Nat) (t : Text) :
    piecesSize (branches depth t) = t.length + 1 := by
  fun_induction branches depth t <;>
    simp_all [piecesSize_extendFirst, branches_ne_nil] <;> omega

/-! ### Marks -/

theorem splitMark_length {branch rest : Text} {mark : Mark}
    (h : splitMark branch = some (mark, rest)) : rest.length < branch.length := by
  unfold splitMark at h
  simp only at h
  split at h
  · simp at h
  · split at h
    · simp at h
    · rename_i r hr
      split at h
      · simp only [Option.some.injEq, Prod.mk.injEq] at h
        unfold Text.after? at hr
        split at hr
        · rename_i hp
          simp only [Option.some.injEq] at hr
          have hlen : (branch.dropWhile isDigit).length ≤ branch.length :=
            (List.dropWhile_suffix isDigit).length_le
          have hpre := (List.isPrefixOf_iff_prefix.1 hp).length_le
          have hr' := congrArg List.length hr
          simp only [List.length_drop] at hr'
          have : markSeparator.length = 2 := rfl
          rw [← h.2]
          omega
        · simp at hr
      · simp at h

/-- A branch as its mark, zero if it has none, and the pattern after it. -/
def markOf (branch : Text) : Mark × Text :=
  match splitMark branch with
  | some marked => marked
  | none => (0, branch)

theorem markOf_length (branch : Text) : (markOf branch).2.length ≤ branch.length := by
  unfold markOf
  split
  · rename_i marked h
    obtain ⟨mark, rest⟩ := marked
    exact Nat.le_of_lt (splitMark_length h)
  · exact Nat.le_refl _

/-! ### Items -/

/-- Literal text as an item, unless it is empty. -/
def textItem (content : Text) : List Pattern :=
  if content.isEmpty then [] else [.text content]

/-- The tree of a list of items. -/
def ofItems : List Pattern → Pattern
  | [] => .text []
  | [item] => item
  | items => .sequence items

/-- An optional part; one with a mark holds a choice of one branch, so that the mark counts only
when the part is taken. -/
def optionalItem (mark : Option Mark) (inside : Pattern) : Pattern :=
  match mark with
  | none => .optional inside
  | some mark => .optional (.choice [(mark, inside)])

/-- The inside of an optional part: its mark, if it has one, and the pattern after it. -/
def optionalInside (inner : Text) : Option Mark × Text :=
  match splitMark inner with
  | some (mark, rest) => (some mark, rest)
  | none => (none, inner)

theorem optionalInside_length (inner : Text) : (optionalInside inner).2.length ≤ inner.length := by
  unfold optionalInside
  split
  · rename_i h
    exact Nat.le_of_lt (splitMark_length h)
  · exact Nat.le_refl _

/-- The item of a regular expression that begins at `base`. -/
def regexItem (dialect : Regex.Dialect) (source : Text) (base : Nat) : Except Fault Pattern :=
  match dialect.compile (Regex.anchored source) with
  | .ok finder => .ok (.regex source (some finder))
  | .error reason => .error ⟨base, .invalidRegex, reason⟩

/-- The fault of a group that does not end. -/
def unclosed (pos : Nat) (what : String) : Fault :=
  ⟨pos, .unclosedGroup, Text.ofString what⟩

mutual

/-- The items of a pattern. `base` is where `src` begins in the whole pattern, and `pending` is the
literal text that was read just before it. -/
def items (dialect : Regex.Dialect) (registry : Registry) (pending : Text) (base : Nat)
    (src : Text) : Except Fault (List Pattern) :=
  match src with
  | [] => .ok (textItem pending)
  | c :: rest =>
    if c = 0x5B then
      match _h : enclosed 0x5B 0x5D 0 rest with
      | none => .error (unclosed base "optional group")
      | some (inner, after) => do
        let parts ← items dialect registry []
          (base + 1 + (inner.length - (optionalInside inner).2.length)) (optionalInside inner).2
        let more ← items dialect registry [] (base + inner.length + 2) after
        .ok (textItem pending ++ optionalItem (optionalInside inner).1 (ofItems parts) :: more)
    else if c = 0x28 then
      match _h : enclosed 0x28 0x29 0 rest with
      | none => .error (unclosed base "choice group")
      | some (inner, after) => do
        let branches ← alternatives dialect registry (base + 1) (branches 0 inner)
        let more ← items dialect registry [] (base + inner.length + 2) after
        .ok (textItem pending ++ .choice branches :: more)
    else if c = 0x3C then
      match _h : enclosed 0x3C 0x3E 0 rest with
      | none => .error (unclosed base "regex group")
      | some (inner, after) => do
        let item ← regexItem dialect inner (base + 1)
        let more ← items dialect registry [] (base + inner.length + 2) after
        .ok (textItem pending ++ item :: more)
    else if c = 0x25 then
      match _h : rest.dropWhile (· != 0x25) with
      | [] => .error (unclosed base "slot declaration")
      | _ :: after => do
        let inner := rest.takeWhile (· != 0x25)
        let slot ← readSlot registry inner (base + 1)
        let more ← items dialect registry [] (base + inner.length + 2) after
        .ok (textItem pending ++ .slot slot :: more)
    else if c = 0x5C then
      match rest with
      | [] => .error ⟨base, .trailingEscape, []⟩
      | d :: rest => items dialect registry (pending ++ [d]) (base + 2) rest
    else items dialect registry (pending ++ [c]) (base + 1) rest
termination_by src.length
decreasing_by
  all_goals simp only [List.length_cons]
  all_goals first
    | omega
    | (have hl := enclosed_length _h; have := optionalInside_length inner; omega)
    | (have hl := enclosed_length _h; rw [piecesSize_branches]; omega)
    | (have hl := congrArg List.length _h
       have := (List.dropWhile_suffix (l := rest) (· != 0x25)).length_le
       simp only [List.length_cons] at *
       omega)

/-- The branches of a choice; `base` is where the first of them begins in the whole pattern. -/
def alternatives (dialect : Regex.Dialect) (registry : Registry) (base : Nat)
    (sources : List Text) : Except Fault (List (Mark × Pattern)) :=
  match sources with
  | [] => .ok []
  | branch :: rest => do
    let parts ← items dialect registry [] (base + (branch.length - (markOf branch).2.length))
      (markOf branch).2
    let more ← alternatives dialect registry (base + branch.length + 1) rest
    .ok (((markOf branch).1, ofItems parts) :: more)
termination_by piecesSize sources
decreasing_by
  all_goals simp only [piecesSize_cons]
  all_goals have := markOf_length branch
  all_goals omega

end

/-- Compiles a pattern. -/
def compile (dialect : Regex.Dialect) (registry : Registry) (pattern : Text) :
    Except CompileError Pattern :=
  match items dialect registry [] 0 pattern with
  | .ok parts => .ok (ofItems parts)
  | .error fault => .error ⟨pattern, fault⟩

end Pattern

end Phrasebook
