import Phrasebook.Unicode.Category
import Phrasebook.Unicode.Case

/-!
# Texts as strings of bytes

A text is any string of bytes. Characters are read from it as UTF-8, and a byte that begins no
well-formed character reads as the replacement character U+FFFD and stands for one byte. All
offsets and lengths count bytes.

The readers at the two ends, `Text.front?` and `Text.last?`, give a character with its width; what
the rest of the library needs of a text (its characters, its blank ends, equality up to letter case)
is defined from them.
-/

namespace Phrasebook

/-- A text is a string of bytes. -/
abbrev Text := List UInt8

namespace Text

/-! ### Writing characters -/

/-- The character that stands for a byte that is no part of a well-formed character. -/
def replacement : Char := Char.ofNat 0xFFFD

/-- The bytes of a code point in UTF-8. -/
def encodeCode (n : Nat) : Text :=
  if n < 0x80 then [n.toUInt8]
  else if n < 0x800 then [(0xC0 + n / 0x40).toUInt8, (0x80 + n % 0x40).toUInt8]
  else if n < 0x10000 then
    [(0xE0 + n / 0x1000).toUInt8, (0x80 + n / 0x40 % 0x40).toUInt8, (0x80 + n % 0x40).toUInt8]
  else
    [(0xF0 + n / 0x40000).toUInt8, (0x80 + n / 0x1000 % 0x40).toUInt8,
      (0x80 + n / 0x40 % 0x40).toUInt8, (0x80 + n % 0x40).toUInt8]

/-- The bytes of a character in UTF-8. -/
def encodeChar (c : Char) : Text :=
  encodeCode c.toNat

/-- The text that spells a list of characters. -/
def ofChars (cs : List Char) : Text :=
  cs.flatMap encodeChar

/-- The text of a string. -/
def ofString (s : String) : Text :=
  ofChars s.toList

/-! ### Reading characters -/

/-- Bytes that continue a character. -/
def isTail (b : UInt8) : Bool :=
  0x80 ≤ b.toNat && b.toNat ≤ 0xBF

/-- The character of a lead byte and what follows it, with its width in bytes. -/
def frontOf (a : UInt8) (rest : Text) : Char × Nat :=
  let bad := (replacement, 1)
  let x := a.toNat
  if x < 0x80 then (Char.ofNat x, 1)
  else
    match rest with
    | b :: rest =>
      let y := b.toNat
      if 0xC2 ≤ x ∧ x ≤ 0xDF ∧ isTail b then
        (Char.ofNat ((x - 0xC0) * 0x40 + (y - 0x80)), 2)
      else
        match rest with
        | c :: rest =>
          let z := c.toNat
          if 0xE0 ≤ x ∧ x ≤ 0xEF ∧ isTail b ∧ isTail c ∧ (x = 0xE0 → 0xA0 ≤ y) ∧
              (x = 0xED → y ≤ 0x9F) then
            (Char.ofNat ((x - 0xE0) * 0x1000 + (y - 0x80) * 0x40 + (z - 0x80)), 3)
          else
            match rest with
            | d :: _ =>
              if 0xF0 ≤ x ∧ x ≤ 0xF4 ∧ isTail b ∧ isTail c ∧ isTail d ∧ (x = 0xF0 → 0x90 ≤ y) ∧
                  (x = 0xF4 → y ≤ 0x8F) then
                (Char.ofNat ((x - 0xF0) * 0x40000 + (y - 0x80) * 0x1000 + (z - 0x80) * 0x40 +
                  (d.toNat - 0x80)), 4)
              else bad
            | [] => bad
        | [] => bad
    | [] => bad

/-- The first character of a text, with its width in bytes. -/
def front? : Text → Option (Char × Nat)
  | [] => none
  | a :: rest => some (frontOf a rest)

/-- A first character takes at least one byte and no more than the text has. -/
theorem frontOf_width (a : UInt8) (rest : Text) :
    1 ≤ (frontOf a rest).2 ∧ (frontOf a rest).2 ≤ rest.length + 1 := by
  unfold frontOf
  simp only
  repeat' split
  all_goals simp_all

theorem front?_width {t : Text} {c : Char} {w : Nat} (h : t.front? = some (c, w)) :
    1 ≤ w ∧ w ≤ t.length := by
  cases t with
  | nil => simp [front?] at h
  | cons a rest =>
    simp only [front?, Option.some.injEq] at h
    have := frontOf_width a rest
    simp_all

/-- The first character is found by looking at the text it takes. -/
def isFrontOfWidth (t : Text) (w : Nat) : Bool :=
  match t.front? with
  | some (_, v) => v == w
  | none => false

/-- The last character of a text: the one that a well-formed sequence of up to four bytes at the
end spells, and otherwise the last byte by itself. -/
def last? (t : Text) : Option Char :=
  let ending (w : Nat) : Option Char :=
    if w ≤ t.length then
      match front? (t.drop (t.length - w)) with
      | some (c, v) => if v = w then some c else none
      | none => none
    else none
  if t.isEmpty then none
  else
    match ending 4, ending 3, ending 2, ending 1 with
    | some c, _, _, _ => some c
    | none, some c, _, _ => some c
    | none, none, some c, _ => some c
    | none, none, none, some c => some c
    | none, none, none, none => some replacement

/-- The characters of a text, each with its width. -/
def frontList (t : Text) : List (Char × Nat) :=
  match _h : t.front? with
  | none => []
  | some (c, w) => (c, w) :: frontList (t.drop w)
termination_by t.length
decreasing_by
  have := front?_width _h
  simp only [List.length_drop]
  omega

/-- The characters of a text. -/
def chars (t : Text) : List Char :=
  t.frontList.map Prod.fst

/-- Whether a text is well-formed UTF-8: it spells its own characters. -/
def isValid (t : Text) : Bool :=
  ofChars t.chars == t

/-- The text as a string, when it is well formed. -/
def toString? (t : Text) : Option String :=
  if t.isValid then some (String.ofList t.chars) else none

/-! ### Blank ends -/

/-- The number of bytes of the white space that begins a text. -/
def blankWidth (t : Text) : Nat :=
  match _h : t.front? with
  | none => 0
  | some (c, w) => if Unicode.isBlank c then w + blankWidth (t.drop w) else 0
termination_by t.length
decreasing_by
  have := front?_width _h
  simp only [List.length_drop]
  omega

/-- The offset where the white space at offset `i` ends. -/
def skipBlank (t : Text) (i : Nat) : Nat :=
  i + blankWidth (t.drop i)

/-- Whether the text begins with white space. -/
def startsBlank (t : Text) : Bool :=
  match t.front? with
  | some (c, _) => Unicode.isBlank c
  | none => false

/-- Whether the text ends with white space. -/
def endsBlank (t : Text) : Bool :=
  match t.last? with
  | some c => Unicode.isBlank c
  | none => false

/-- The text without the white space at its start. -/
def trimLeft (t : Text) : Text :=
  t.drop t.blankWidth

/-- The number of bytes of the last character. -/
def lastWidth (t : Text) : Nat :=
  match [4, 3, 2].find? fun w => w ≤ t.length && isFrontOfWidth (t.drop (t.length - w)) w with
  | some w => w
  | none => 1

/-- The text without the white space at its end. -/
def trimRight (t : Text) : Text :=
  if _h : t ≠ [] ∧ t.endsBlank then trimRight (t.take (t.length - max 1 t.lastWidth)) else t
termination_by t.length
decreasing_by
  have : 0 < t.length := List.length_pos_iff.2 _h.1
  simp only [List.length_take]
  omega

/-- The text without the white space at its ends. -/
def trim (t : Text) : Text :=
  t.trimLeft.trimRight

/-! ### Letter case -/

/-- The text with every character in lower case. -/
def lower (t : Text) : Text :=
  ofChars (t.chars.map Unicode.toLower)

/-- Whether two texts differ in letter case alone. -/
def equalFold (s t : Text) : Bool :=
  s.chars.map Unicode.caseFold == t.chars.map Unicode.caseFold

/-! ### Searching and joining -/

/-- What follows `head` in a text that begins with it. -/
def after? (head t : Text) : Option Text :=
  if head.isPrefixOf t then some (t.drop head.length) else none

/-- The pieces of a text between the bytes `b`. -/
def splitOn (b : UInt8) : Text → List Text
  | [] => [[]]
  | a :: rest =>
    if a = b then [] :: splitOn b rest
    else
      match splitOn b rest with
      | piece :: pieces => (a :: piece) :: pieces
      | [] => [[a]]

/-- Texts put together with a separator between neighbours. -/
def join (separator : Text) : List Text → Text
  | [] => []
  | [t] => t
  | t :: rest => t ++ separator ++ join separator rest

/-- The decimal digits of a number. -/
def ofNat (n : Nat) : Text :=
  ofString (Nat.repr n)

/-- A number in decimal, with a minus sign when it is negative. -/
def ofInt (n : Int) : Text :=
  if n < 0 then 0x2D :: ofNat n.natAbs else ofNat n.natAbs

/-- A byte as two hexadecimal digits. -/
def hexByte (b : UInt8) : Text :=
  let digit (n : Nat) : UInt8 := if n < 10 then (48 + n).toUInt8 else (87 + n).toUInt8
  [digit (b.toNat / 16), digit (b.toNat % 16)]

/-- A number in lower-case hexadecimal, padded with zeros to at least `width` digits. -/
def hex (width n : Nat) : Text :=
  let digits := ofChars (Nat.toDigits 16 n)
  List.replicate (width - digits.length) 0x30 ++ digits

/-- Texts in the order of their bytes. -/
def le (s t : Text) : Bool :=
  match s, t with
  | [], _ => true
  | _ :: _, [] => false
  | a :: s, b :: t => a.toNat < b.toNat || (a == b && le s t)

end Text

end Phrasebook
