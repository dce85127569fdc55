import Mathlib.Algebra.Group.Nat.Defs
import Mathlib.Data.Bool.AllAny
import Phrasebook.Number.Integer
import Phrasebook.Proofs.Text.Utf8
import Phrasebook.Text.Quoted

/-!
# Reading quoted texts back

Inside quotes each character stands for itself or is escaped, and an escape tells by its letter how
many hexadecimal digits follow.  So the pieces of a quoted text can be told apart one after the
other, and broken bytes do not look like the characters of the same number.

* `Integer.digits?_hex` : a number in hexadecimal digits is read back.
* `Text.CharForm` : the ways to write a character between quotes.
* `Text.readPiece` : the bytes that the first piece of a quoted body stands for.
* `Text.quoted_injective` : **texts that look alike between quotes are the same**, whatever their
  bytes.
* `Text.newline_notMem_quoted` : no line ends between quotes.
-/

namespace Phrasebook

/-! ### Hexadecimal digits -/

namespace Integer

theorem digitsFrom?_append (base value : Nat) (s t : Text) :
    digitsFrom? base value (s ++ t) =
      (digitsFrom? base value s).bind fun value => digitsFrom? base value t := by
  induction s generalizing value with
  | nil => rfl
  | cons b s ih =>
    rw [List.cons_append, digitsFrom?, digitsFrom?]
    cases digit? b with
    | none => rfl
    | some d =>
      simp only
      split_ifs
      · exact ih _
      · rfl

/-- What is read as digits has digits only. -/
theorem isSome_digit?_of_digitsFrom? {base value n : Nat} {t : Text}
    (h : digitsFrom? base value t = some n) : ∀ b ∈ t, (digit? b).isSome := by
  induction t generalizing value with
  | nil => simp
  | cons b t ih =>
    rw [digitsFrom?] at h
    split at h
    · rename_i d hd
      split_ifs at h
      exact List.forall_mem_cons.2 ⟨by rw [hd]; rfl, ih h⟩
    · cases h

theorem digitsFrom?_digitChar {d : Nat} (hd : d < 16) (value : Nat) :
    digitsFrom? 16 value (Text.encodeChar d.digitChar) = some (value * 16 + d) := by
  have hdigit : ∀ d < 16, (Text.encodeChar d.digitChar).map digit? = [some d] := by decide
  obtain ⟨b, hb, hvalue⟩ := List.map_eq_singleton_iff.1 (hdigit d hd)
  rw [hb, digitsFrom?, hvalue]
  simp only
  rw [if_pos hd, digitsFrom?]

theorem digitsFrom?_toDigits (n : Nat) :
    digitsFrom? 16 0 (Text.ofChars (Nat.toDigits 16 n)) = some n := by
  induction n using Nat.strongRecOn with
  | ind n ih =>
    have hlast (m : Nat) : Text.ofChars [Nat.digitChar m] = Text.encodeChar m.digitChar :=
      List.flatMap_singleton ..
    rw [Nat.toDigits_eq_if (by decide)]
    split_ifs with hn
    · rw [hlast, digitsFrom?_digitChar hn, Nat.zero_mul, Nat.zero_add]
    · have hsplit : Text.ofChars (Nat.toDigits 16 (n / 16) ++ [Nat.digitChar (n % 16)]) =
          Text.ofChars (Nat.toDigits 16 (n / 16)) ++ Text.encodeChar (Nat.digitChar (n % 16)) := by
        rw [← hlast]
        exact List.flatMap_append
      rw [hsplit, digitsFrom?_append, ih (n / 16) (by omega), Option.bind_some,
        digitsFrom?_digitChar (Nat.mod_lt _ (by decide)), Nat.div_add_mod']

theorem digitsFrom?_zeros (k : Nat) (t : Text) :
    digitsFrom? 16 0 (List.replicate k 0x30 ++ t) = digitsFrom? 16 0 t := by
  induction k with
  | zero => rfl
  | succ k ih =>
    rw [List.replicate_succ, List.cons_append, digitsFrom?, ← ih]
    rfl

theorem digitsFrom?_hex (width n : Nat) : digitsFrom? 16 0 (Text.hex width n) = some n := by
  rw [Text.hex, digitsFrom?_zeros, digitsFrom?_toDigits]

end Integer

namespace Text

theorem length_toDigits (n : Nat) :
    (ofChars (Nat.toDigits 16 n)).length = (Nat.toDigits 16 n).length := by
  have hdigit : ∀ d < 16, (encodeChar d.digitChar).length = 1 := by decide
  induction n using Nat.strongRecOn with
  | ind n ih =>
    rw [Nat.toDigits_eq_if (by decide)]
    split_ifs with hn
    · simp [ofChars, hdigit n hn]
    · have := ih (n / 16) (by omega)
      simp only [ofChars] at this
      simp [ofChars, this, hdigit (n % 16) (Nat.mod_lt _ (by decide))]

theorem length_hex {width n : Nat} (hwidth : 0 < width) (hn : n < 16 ^ width) :
    (hex width n).length = width := by
  have hle := (Nat.length_toDigits_le_iff (by decide) hwidth).2 hn
  simp only [hex, List.length_append, List.length_replicate, length_toDigits]
  omega

end Text

/-- **A number in hexadecimal digits is read back**, with zeros in front or without. -/
theorem Integer.digits?_hex {width n : Nat} (hwidth : 0 < width) (hn : n < 16 ^ width) :
    digits? 16 (Text.hex width n) = some n := by
  have hne : (Text.hex width n).isEmpty = false := by
    rw [List.isEmpty_eq_false_iff, ← List.length_pos_iff, Text.length_hex hwidth hn]
    exact hwidth
  rw [digits?, hne, if_neg Bool.false_ne_true, digitsFrom?_hex]

namespace Text

theorem digits?_hexByte (b : UInt8) : Integer.digits? 16 (hexByte b) = some b.toNat := by
  have h : ∀ n < 256, Integer.digits? 16 (hexByte n.toUInt8) = some n := by decide +kernel
  have hb := h b.toNat b.toNat_lt
  rwa [toUInt8_eq rfl] at hb

/-! ### Pieces of a quoted body -/

/-- What stands for the first character of a text between quotes. -/
def quotedPiece (t : Text) (c : Char) (w : Nat) : Text :=
  if c = replacement ∧ w = 1 then ofString "\\x" ++ (t.take 1).flatMap hexByte else quotedChar c

theorem quotedBody_nil : quotedBody [] = [] := by
  rw [quotedBody]
  rfl

theorem quotedBody_of_front? {t : Text} {c : Char} {w : Nat} (h : t.front? = some (c, w)) :
    quotedBody t = quotedPiece t c w ++ quotedBody (t.drop w) := by
  rw [quotedBody]
  split
  · simp_all
  · simp_all [quotedPiece]

/-- The letters that escape one character each, with its code. -/
def escapeLetters : List (UInt8 × UInt8) :=
  [(0x61, 7), (0x62, 8), (0x66, 12), (0x6E, 10), (0x72, 13), (0x74, 9), (0x76, 11)]

/-- The bytes that an escape stands for, by what comes after its backslash, and what follows the
escape. -/
def readEscape : Text → Text × Text
  | [] => ([], [])
  | letter :: rest =>
    let number (width : Nat) : Nat := (Integer.digits? 16 (rest.take width)).getD 0
    if letter = 0x78 then ([(number 2).toUInt8], rest.drop 2)
    else if letter = 0x75 then (encodeCode (number 4), rest.drop 4)
    else if letter = 0x55 then (encodeCode (number 8), rest.drop 8)
    else ([(escapeLetters.lookup letter).getD letter], rest)

/-- The bytes that the first piece of a quoted body stands for, and what follows the piece. -/
def readPiece : Text → Text × Text
  | [] => ([], [])
  | b :: rest =>
    if b = 0x5C then readEscape rest
    else
      match front? (b :: rest) with
      | some (_, w) => ((b :: rest).take w, (b :: rest).drop w)
      | none => ([], [])

/-- The ways to write a character between quotes. -/
inductive CharForm (c : Char) : Text → Prop where
  /-- A quote and a backslash come after a backslash. -/
  | mark (h : c.toNat = 0x22 ∨ c.toNat = 0x5C) : CharForm c [0x5C, c.toNat.toUInt8]
  /-- A character that can be seen stands for itself. -/
  | itself (h : Unicode.isPrintable c) (hmark : c.toNat ≠ 0x5C) : CharForm c (encodeChar c)
  /-- A character with a letter of its own is escaped by it. -/
  | letter {letter code : UInt8} (hmem : (letter, code) ∈ escapeLetters)
      (hcode : c.toNat = code.toNat) : CharForm c [0x5C, letter]
  /-- Another character of ASCII is escaped as a byte. -/
  | byte (h : c.toNat < 0x80) : CharForm c (0x5C :: 0x78 :: hex 2 c.toNat)
  /-- A character beyond ASCII is escaped by its code, in four digits if these are enough. -/
  | short (h : c.toNat < 0x10000) : CharForm c (0x5C :: 0x75 :: hex 4 c.toNat)
  /-- Eight digits are enough for all characters. -/
  | long : CharForm c (0x5C :: 0x55 :: hex 8 c.toNat)

/-- **A character is written in one of these ways.** -/
theorem charForm_quotedChar (c : Char) : CharForm c (quotedChar c) := by
  by_cases hmark : c.toNat = 0x22 ∨ c.toNat = 0x5C
  · rw [quotedChar, if_pos hmark]
    exact .mark hmark
  by_cases hprint : Unicode.isPrintable c
  · rw [quotedChar, if_neg hmark, if_pos hprint]
    exact .itself hprint fun h => hmark (.inr h)
  by_cases hletter : ∃ escape ∈ escapeLetters, c.toNat = escape.2.toNat
  · obtain ⟨⟨letter, code⟩, hmem, hcode⟩ := hletter
    have hpiece : ∀ escape ∈ escapeLetters,
        quotedChar (Char.ofNat escape.2.toNat) = [0x5C, escape.1] :=
      List.all_iff_forall_prop.1 (by decide)
    have hc : c = Char.ofNat code.toNat := by rw [← hcode, Char.ofNat_toNat]
    rw [hc, hpiece _ hmem, ← hc]
    exact .letter hmem hcode
  -- no letter is left, and the number is written out
  have hnumber : quotedChar c =
      if c.toNat < 0x20 ∨ c.toNat = 0x7F then ofString "\\x" ++ hex 2 c.toNat
      else if c.toNat < 0x10000 then ofString "\\u" ++ hex 4 c.toNat
      else ofString "\\U" ++ hex 8 c.toNat := by
    simp only [escapeLetters, List.exists_mem_cons_iff, List.not_mem_nil, false_and, exists_false,
      or_false, not_or] at hletter
    obtain ⟨h7, h8, h12, h10, h13, h9, h11⟩ := hletter
    rw [quotedChar, if_neg hmark, if_neg hprint]
    exact (if_neg h7).trans ((if_neg h8).trans ((if_neg h12).trans ((if_neg h10).trans
      ((if_neg h13).trans ((if_neg h9).trans (if_neg h11))))))
  rw [hnumber]
  by_cases hcontrol : c.toNat < 0x20 ∨ c.toNat = 0x7F
  · rw [if_pos hcontrol]
    exact .byte (by omega)
  by_cases hshort : c.toNat < 0x10000
  · rw [if_neg hcontrol, if_pos hshort]
    exact .short hshort
  · rw [if_neg hcontrol, if_neg hshort]
    exact .long

/-! ### Reading pieces -/

/-- A number of a known width is read as far as it goes. -/
theorem readNumber {width n : Nat} {digits : Text} (hlen : digits.length = width)
    (hvalue : Integer.digits? 16 digits = some n) (rest : Text) :
    (Integer.digits? 16 ((digits ++ rest).take width)).getD 0 = n ∧
      (digits ++ rest).drop width = rest := by
  rw [List.take_left' hlen, hvalue]
  exact ⟨rfl, List.drop_left' hlen⟩

theorem readPiece_byte {n : Nat} {digits : Text} (hlen : digits.length = 2)
    (hvalue : Integer.digits? 16 digits = some n) (rest : Text) :
    readPiece (0x5C :: 0x78 :: digits ++ rest) = ([n.toUInt8], rest) := by
  obtain ⟨htake, hdrop⟩ := readNumber hlen hvalue rest
  change ([((Integer.digits? 16 ((digits ++ rest).take 2)).getD 0).toUInt8],
    (digits ++ rest).drop 2) = _
  rw [htake, hdrop]

theorem readPiece_code {letter : UInt8} {width n : Nat} (hwidth : 0 < width) (hn : n < 16 ^ width)
    (hletter : ∀ t, readEscape (letter :: t) =
      (encodeCode ((Integer.digits? 16 (t.take width)).getD 0), t.drop width)) (rest : Text) :
    readPiece (0x5C :: letter :: hex width n ++ rest) = (encodeCode n, rest) := by
  obtain ⟨htake, hdrop⟩ := readNumber (length_hex hwidth hn) (Integer.digits?_hex hwidth hn) rest
  change readEscape (letter :: (hex width n ++ rest)) = _
  rw [hletter, htake, hdrop]

theorem readPiece_encodeChar {c : Char} (hc : c.toNat ≠ 0x5C) (rest : Text) :
    readPiece (encodeChar c ++ rest) = (encodeChar c, rest) := by
  have hfront := front?_encodeChar c rest
  cases hbytes : encodeChar c with
  | nil => exact absurd hbytes (encodeChar_ne_nil c)
  | cons b bytes =>
    have hb : b ≠ 0x5C := by
      rintro rfl
      exact hc (toNat_eq_of_mem_encodeChar (hbytes ▸ List.mem_cons_self) (by decide))
    rw [hbytes] at hfront
    rw [List.cons_append, readPiece, if_neg hb, ← List.cons_append, hfront]
    simp only
    rw [List.take_left, List.drop_left]

theorem readEscape_letter {letter code : UInt8} (hmem : (letter, code) ∈ escapeLetters)
    (rest : Text) : readEscape (letter :: rest) = ([code], rest) := by
  simp only [escapeLetters, List.mem_cons, List.not_mem_nil, or_false, Prod.mk.injEq] at hmem
  rcases hmem with h | h | h | h | h | h | h <;> obtain ⟨rfl, rfl⟩ := h <;> rfl

/-- The piece that stands for a character is read as the bytes of that character. -/
theorem readPiece_of_charForm {c : Char} {piece : Text} (h : CharForm c piece) (rest : Text) :
    readPiece (piece ++ rest) = (encodeChar c, rest) := by
  cases h with
  | mark h =>
    rw [encodeChar_of_lt (by omega)]
    rcases h with h | h <;> rw [h] <;> rfl
  | itself _ hmark => exact readPiece_encodeChar hmark rest
  | @letter letter code hmem hcode =>
    have hascii : ∀ escape ∈ escapeLetters, escape.2.toNat < 0x80 :=
      List.all_iff_forall_prop.1 (by decide)
    have hlt : code.toNat < 0x80 := hascii _ hmem
    rw [encodeChar_of_lt (by omega), toUInt8_eq hcode]
    exact readEscape_letter hmem rest
  | byte h =>
    rw [encodeChar_of_lt h]
    exact readPiece_byte (length_hex (by decide) (by omega))
      (Integer.digits?_hex (by decide) (by omega)) rest
  | short h => exact readPiece_code (by decide) (by omega) (fun _ => rfl) rest
  | long =>
    have := char_code c
    exact readPiece_code (by decide) (by omega) (fun _ => rfl) rest

/-- **The first piece of a quoted body is read as the bytes it stands for**, also those of a broken
character. -/
theorem readPiece_quotedBody {t : Text} {c : Char} {w : Nat} (h : t.front? = some (c, w)) :
    readPiece t.quotedBody = (t.take w, quotedBody (t.drop w)) := by
  rw [quotedBody_of_front? h, quotedPiece]
  split_ifs with hbroken
  · obtain ⟨-, rfl⟩ := hbroken
    cases t with
    | nil => simp [front?] at h
    | cons b t =>
      have hlen : (hexByte b).length = 2 := rfl
      have hpiece := readPiece_byte hlen (digits?_hexByte b) (quotedBody t)
      rw [toUInt8_eq rfl] at hpiece
      rw [List.take_succ_cons, List.take_zero, List.flatMap_singleton]
      exact hpiece
  · rw [readPiece_of_charForm (charForm_quotedChar c), take_of_whole h hbroken]

/-! ### Quoted texts -/

theorem eq_nil_of_quotedBody {t : Text} (h : t.quotedBody = []) : t = [] := by
  cases ht : t.front? with
  | none => exact eq_nil_of_front? ht
  | some front =>
    obtain ⟨c, w⟩ := front
    have hw := front?_width ht
    have hpiece := readPiece_quotedBody ht
    rw [h, readPiece, Prod.mk.injEq] at hpiece
    have := congrArg List.length hpiece.1
    simp only [List.length_nil, List.length_take] at this
    omega

theorem quotedBody_injective : Function.Injective quotedBody := by
  intro s t h
  induction s using frontList.induct generalizing t with
  | case1 s hs =>
    obtain rfl := eq_nil_of_front? hs
    rw [quotedBody_nil] at h
    exact (eq_nil_of_quotedBody h.symm).symm
  | case2 s c w hs ih =>
    have hpiece := readPiece_quotedBody hs
    cases ht : t.front? with
    | none =>
      obtain rfl := eq_nil_of_front? ht
      rw [quotedBody_nil] at h
      exact eq_nil_of_quotedBody h
    | some front =>
      obtain ⟨d, v⟩ := front
      rw [h, readPiece_quotedBody ht, Prod.mk.injEq] at hpiece
      rw [← List.take_append_drop w s, ← List.take_append_drop v t, hpiece.1, ih hpiece.2.symm]

/-- **Texts that look alike between quotes are the same.** -/
theorem quoted_injective : Function.Injective quoted := by
  intro s t h
  exact quotedBody_injective (List.append_cancel_right (List.cons.inj h).2)

/-! ### Lines -/

theorem newline_notMem_hex (width n : Nat) : 0x0A ∉ hex width n := by
  intro h
  have := Integer.isSome_digit?_of_digitsFrom? (Integer.digitsFrom?_hex width n) _ h
  exact absurd this (by decide)

theorem newline_notMem_of_charForm {c : Char} {piece : Text} (h : CharForm c piece) :
    0x0A ∉ piece := by
  cases h with
  | mark h => rcases h with h | h <;> rw [h] <;> decide
  | itself h _ =>
    intro hmem
    have hc : c.toNat = 0x0A := toNat_eq_of_mem_encodeChar hmem (by decide)
    rw [← Char.ofNat_toNat c, hc] at h
    exact absurd h (by decide)
  | letter hmem _ =>
    have hletters : ∀ escape ∈ escapeLetters, 0x0A ∉ ([0x5C, escape.1] : Text) :=
      List.all_iff_forall_prop.1 (by decide)
    exact hletters _ hmem
  | byte _ | short _ | long => simp [newline_notMem_hex]

/-- **No line ends between quotes.** -/
theorem newline_notMem_quoted (t : Text) : 0x0A ∉ t.quoted := by
  suffices h : 0x0A ∉ t.quotedBody by simp [quoted, h]
  induction t using frontList.induct with
  | case1 t h =>
    obtain rfl := eq_nil_of_front? h
    simp [quotedBody_nil]
  | case2 t c w h ih =>
    rw [quotedBody_of_front? h, quotedPiece, List.mem_append, not_or]
    refine ⟨?_, ih⟩
    split_ifs
    · have hbytes : ∀ n < 256, 0x0A ∉ hexByte n.toUInt8 := by decide +kernel
      have hword : 0x0A ∉ ofString "\\x" := by decide
      simp only [List.mem_append, List.mem_flatMap, not_or, not_exists, not_and]
      refine ⟨hword, fun b _ hb => hbytes b.toNat b.toNat_lt ?_⟩
      rwa [toUInt8_eq rfl]
    · exact newline_notMem_of_charForm (charForm_quotedChar c)

end Text

end Phrasebook
