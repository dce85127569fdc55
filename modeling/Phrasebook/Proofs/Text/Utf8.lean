import Mathlib.Data.List.Basic
import Phrasebook.Text

/-!
# Well-formed texts

What the readers of characters make of the bytes of a text.

* `Text.front?_encodeChar` : the bytes of a character read back as that character.
* `Text.isValid_iff` : a text is well formed when it spells some list of characters.
* `Text.take_of_front?` : a character that is read stands there in its own bytes.
* `Text.isValid_append_iff`, `Text.isValid_of_split` : cutting a well-formed text between
  characters, and so at an ASCII byte, leaves two of them.
* `Text.last?_append`, `Text.ending?_lastWidth` : where the last character of a text stands.
-/

namespace Phrasebook

namespace Text

/-! ### The bytes of a character -/

theorem toNat_toUInt8 {n : Nat} (h : n < 256) : n.toUInt8.toNat = n := by
  simp only [Nat.toUInt8, UInt8.toNat_ofNat']
  omega

theorem char_code (c : Char) : c.toNat < 0xD800 ∨ (0xDFFF < c.toNat ∧ c.toNat < 0x110000) := by
  have h := c.valid
  simp only [UInt32.isValidChar, Nat.isValidChar] at h
  exact h

theorem encodeChar_of_lt {c : Char} (h : c.toNat < 0x80) : encodeChar c = [c.toNat.toUInt8] :=
  if_pos h

theorem le_of_mem_encodeChar {c : Char} (h : 0x80 ≤ c.toNat) :
    ∀ b ∈ encodeChar c, 0x80 ≤ b.toNat := by
  have hc := char_code c
  unfold encodeChar encodeCode
  split_ifs with h1 h2 h3
  · omega
  all_goals
    simp only [List.forall_mem_cons, List.not_mem_nil, false_implies, implies_true, and_true]
    refine ⟨?_, ?_⟩ <;> try refine ⟨?_, ?_⟩
  all_goals try refine ⟨?_, ?_⟩
  all_goals
    rw [toNat_toUInt8 (by omega)]
    omega

/-- A byte of ASCII is only in the character of its code. -/
theorem toNat_eq_of_mem_encodeChar {c : Char} {b : UInt8} (h : b ∈ encodeChar c)
    (hb : b.toNat < 0x80) : c.toNat = b.toNat := by
  by_cases hc : c.toNat < 0x80
  · rw [encodeChar_of_lt hc, List.mem_singleton] at h
    rw [h, toNat_toUInt8 (by omega)]
  · have := le_of_mem_encodeChar (Nat.not_lt.1 hc) b h
    omega

theorem encodeChar_ne_nil (c : Char) : encodeChar c ≠ [] := by
  unfold encodeChar encodeCode
  split_ifs <;> simp

/-- The bytes of a character read back as that character, whatever follows them. -/
theorem front?_encodeChar (c : Char) (rest : Text) :
    front? (encodeChar c ++ rest) = some (c, (encodeChar c).length) := by
  have hc := char_code c
  have back : ∀ n, n = c.toNat → Char.ofNat n = c := by
    rintro n rfl
    exact Char.ofNat_toNat c
  unfold encodeChar encodeCode
  split_ifs with h1 h2 h3
  · have ha := toNat_toUInt8 (n := c.toNat) (by omega)
    simp only [List.cons_append, List.nil_append, front?, frontOf, ha, List.length_cons,
      List.length_nil]
    rw [if_pos h1, back _ rfl]
  · have ha := toNat_toUInt8 (n := 0xC0 + c.toNat / 0x40) (by omega)
    have hb := toNat_toUInt8 (n := 0x80 + c.toNat % 0x40) (by omega)
    simp only [List.cons_append, List.nil_append, front?, frontOf, isTail, ha, hb,
      List.length_cons, List.length_nil]
    rw [if_neg (by omega), if_pos (by simp; omega), back _ (by omega)]
  · have ha := toNat_toUInt8 (n := 0xE0 + c.toNat / 0x1000) (by omega)
    have hb := toNat_toUInt8 (n := 0x80 + c.toNat / 0x40 % 0x40) (by omega)
    have hd := toNat_toUInt8 (n := 0x80 + c.toNat % 0x40) (by omega)
    simp only [List.cons_append, List.nil_append, front?, frontOf, isTail, ha, hb, hd,
      List.length_cons, List.length_nil]
    rw [if_neg (by omega), if_neg (by simp; omega), if_pos (by simp; omega), back _ (by omega)]
  · have ha := toNat_toUInt8 (n := 0xF0 + c.toNat / 0x40000) (by omega)
    have hb := toNat_toUInt8 (n := 0x80 + c.toNat / 0x1000 % 0x40) (by omega)
    have hd := toNat_toUInt8 (n := 0x80 + c.toNat / 0x40 % 0x40) (by omega)
    have he := toNat_toUInt8 (n := 0x80 + c.toNat % 0x40) (by omega)
    simp only [List.cons_append, List.nil_append, front?, frontOf, isTail, ha, hb, hd, he,
      List.length_cons, List.length_nil]
    rw [if_neg (by omega), if_neg (by simp; omega), if_neg (by simp; omega),
      if_pos (by simp; omega), back _ (by omega)]

theorem eq_nil_of_front? {t : Text} (h : t.front? = none) : t = [] := by
  cases t with
  | nil => rfl
  | cons a rest => simp [front?] at h

theorem frontList_nil : frontList [] = [] := by
  rw [frontList]
  rfl

theorem frontList_of_front? {t : Text} {c : Char} {w : Nat} (h : t.front? = some (c, w)) :
    frontList t = (c, w) :: frontList (t.drop w) := by
  rw [frontList]
  split
  · simp_all
  · simp_all

/-- Characters that are spelled out read back, whatever follows them. -/
theorem chars_ofChars_append (cs : List Char) (t : Text) :
    chars (ofChars cs ++ t) = cs ++ chars t := by
  induction cs with
  | nil => rfl
  | cons c cs ih =>
    have hf := front?_encodeChar c (ofChars cs ++ t)
    have hl := frontList_of_front? hf
    rw [List.drop_left] at hl
    change chars (encodeChar c ++ ofChars cs ++ t) = _
    rw [List.append_assoc, chars, hl, List.map_cons]
    exact congrArg (c :: ·) ih

theorem chars_ofChars (cs : List Char) : chars (ofChars cs) = cs := by
  have hnil : chars [] = [] := by rw [chars, frontList_nil, List.map_nil]
  have h := chars_ofChars_append cs []
  rwa [List.append_nil, hnil, List.append_nil] at h

/-! ### Well-formed texts -/

theorem isValid_iff {t : Text} : t.isValid ↔ ∃ cs, t = ofChars cs := by
  simp only [isValid, beq_iff_eq]
  constructor
  · intro h
    exact ⟨t.chars, h.symm⟩
  · rintro ⟨cs, rfl⟩
    rw [chars_ofChars]

theorem isValid_ofChars (cs : List Char) : (ofChars cs).isValid :=
  isValid_iff.2 ⟨cs, rfl⟩

theorem isValid_encodeChar (c : Char) : (encodeChar c).isValid :=
  isValid_iff.2 ⟨[c], (List.flatMap_singleton ..).symm⟩

theorem isValid_append {s t : Text} (hs : s.isValid) (ht : t.isValid) : (s ++ t).isValid := by
  obtain ⟨cs, rfl⟩ := isValid_iff.1 hs
  obtain ⟨ds, rfl⟩ := isValid_iff.1 ht
  exact isValid_iff.2 ⟨cs ++ ds, by simp [ofChars]⟩

theorem isValid_of_encodeChar_append {c : Char} {t : Text} (h : (encodeChar c ++ t).isValid) :
    t.isValid := by
  obtain ⟨cs, hcs⟩ := isValid_iff.1 h
  cases cs with
  | nil => exact absurd (List.append_eq_nil_iff.1 hcs).1 (encodeChar_ne_nil c)
  | cons d ds =>
    change encodeChar c ++ t = encodeChar d ++ ofChars ds at hcs
    have hf := front?_encodeChar c t
    rw [hcs, front?_encodeChar] at hf
    obtain rfl : d = c := congrArg Prod.fst (Option.some.inj hf)
    exact isValid_iff.2 ⟨ds, List.append_cancel_left hcs⟩

/-! ### The bytes that a reader takes -/

theorem front?_width_le {t : Text} {c : Char} {w : Nat} (h : t.front? = some (c, w)) : w ≤ 4 := by
  cases t with
  | nil => simp [front?] at h
  | cons a rest =>
    simp only [front?, Option.some.injEq] at h
    have hw : w = (frontOf a rest).2 := by rw [h]
    rw [hw]
    unfold frontOf
    simp only
    repeat' split
    all_goals simp

/-- The first character is an ASCII byte, or all of its bytes are above these. -/
theorem front?_bytes {t : Text} {c : Char} {w : Nat} (h : t.front? = some (c, w)) :
    (∃ a rest, t = a :: rest ∧ a.toNat < 0x80 ∧ c = Char.ofNat a.toNat ∧ w = 1) ∨
      ∀ b ∈ t.take w, 0x80 ≤ b.toNat := by
  cases t with
  | nil => simp [front?] at h
  | cons a rest =>
    simp only [front?, Option.some.injEq] at h
    by_cases ha : a.toNat < 0x80
    · simp only [frontOf, ha, ↓reduceIte, Prod.mk.injEq] at h
      exact .inl ⟨a, rest, rfl, ha, h.1.symm, h.2.symm⟩
    · right
      unfold frontOf at h
      simp only at h
      repeat' split at h
      all_goals
        simp only [Prod.mk.injEq] at h
        obtain ⟨-, rfl⟩ := h
        simp_all [isTail]

/-- All bytes of the first character but the first continue it. -/
theorem front?_tails {a : UInt8} {rest : Text} {c : Char} {w : Nat}
    (h : front? (a :: rest) = some (c, w)) : ∀ b ∈ rest.take (w - 1), isTail b := by
  simp only [front?, Option.some.injEq] at h
  unfold frontOf at h
  simp only at h
  repeat' split at h
  all_goals
    simp only [Prod.mk.injEq] at h
    obtain ⟨-, rfl⟩ := h
    simp_all

theorem frontOf_of_isTail {a : UInt8} (h : isTail a) (rest : Text) :
    frontOf a rest = (replacement, 1) := by
  simp only [isTail, Bool.and_eq_true, decide_eq_true_eq] at h
  unfold frontOf
  simp only
  repeat' split
  all_goals first
    | omega
    | rfl

theorem front?_head {a : UInt8} {rest : Text} {c : Char} {w : Nat}
    (h : front? (a :: rest) = some (c, w)) (hc : c ≠ replacement) : isTail a = false := by
  by_contra ha
  rw [Bool.not_eq_false] at ha
  rw [front?, frontOf_of_isTail ha, Option.some.injEq, Prod.mk.injEq] at h
  exact hc h.1.symm

/-- A character is read from its own bytes, whatever follows them. -/
theorem frontOf_take (a : UInt8) (rest : Text) {n : Nat} (h : (frontOf a rest).2 ≤ n + 1) :
    frontOf a (rest.take n) = frontOf a rest := by
  match n, rest with
  | _, [] => rw [List.take_nil]
  | 0, [_] | 0, [_, _] | 0, _ :: _ :: _ :: _ | 1, [_, _] | 1, _ :: _ :: _ :: _
  | 2, _ :: _ :: _ :: _ =>
    -- a character that would reach beyond the bytes kept is too wide
    simp only [frontOf, List.take_succ_cons, List.take_zero] at h ⊢
    split_ifs at h ⊢
    all_goals first
      | (simp at h; done)
      | rfl
  | 1, [_] | 2, [_] | 2, [_, _] | n + 3, [_] | n + 3, [_, _] | n + 3, _ :: _ :: _ :: _ => rfl

theorem front?_take {t : Text} {c : Char} {w n : Nat} (hf : t.front? = some (c, w)) (hn : w ≤ n) :
    front? (t.take n) = some (c, w) := by
  have hw := front?_width hf
  cases t with
  | nil => simp [front?] at hf
  | cons a rest =>
    obtain ⟨k, rfl⟩ : ∃ k, n = k + 1 := ⟨n - 1, by omega⟩
    have hfront : frontOf a rest = (c, w) := Option.some.inj hf
    have htake := frontOf_take a rest (n := k) (by rw [hfront]; exact hn)
    rw [List.take_succ_cons, front?, htake, hfront]

theorem toNat_charOfNat {n : Nat} (h : n.isValidChar) : (Char.ofNat n).toNat = n := by
  rw [Char.ofNat, dif_pos h]
  rfl

/-- A number that is no code point stands for the first character. -/
theorem toNat_charOfNat_or (n : Nat) : (Char.ofNat n).toNat = n ∨ (Char.ofNat n).toNat = 0 := by
  by_cases hvalid : n.isValidChar
  · exact .inl (toNat_charOfNat hvalid)
  · rw [Char.ofNat, dif_neg hvalid]
    exact .inr rfl

theorem toUInt8_eq {b : UInt8} {n : Nat} (h : n = b.toNat) : n.toUInt8 = b := by
  subst h
  exact UInt8.toNat_inj.1 (toNat_toUInt8 b.toNat_lt)

/-- A character that is read stands there in its own bytes, unless a byte is broken. -/
theorem take_of_whole {t : Text} {c : Char} {w : Nat} (hf : t.front? = some (c, w))
    (hwhole : ¬ (c = replacement ∧ w = 1)) : t.take w = encodeChar c := by
  have notBroken (h : (replacement, 1) = (c, w)) : False :=
    hwhole ⟨(Prod.mk.inj h).1.symm, (Prod.mk.inj h).2.symm⟩
  rcases t with _ | ⟨a, rest⟩
  · simp [front?] at hf
  have ha := a.toNat_lt
  simp only [front?, frontOf, isTail, Bool.and_eq_true, decide_eq_true_eq,
    Option.some.injEq] at hf
  -- the code point is put together from the bytes, and gives them back
  split_ifs at hf with hone
  · obtain ⟨rfl, rfl⟩ := Prod.mk.inj hf
    rw [encodeChar, toNat_charOfNat (.inl (by omega)), encodeCode, if_pos hone, toUInt8_eq rfl]
    rfl
  rcases rest with _ | ⟨b, rest⟩
  · exact (notBroken hf).elim
  simp only at hf
  split_ifs at hf with htwo
  · obtain ⟨rfl, rfl⟩ := Prod.mk.inj hf
    rw [encodeChar, toNat_charOfNat (.inl (by omega)), encodeCode, if_neg (by omega),
      if_pos (by omega), toUInt8_eq (b := a) (by omega), toUInt8_eq (b := b) (by omega)]
    rfl
  rcases rest with _ | ⟨d, rest⟩
  · exact (notBroken hf).elim
  simp only at hf
  split_ifs at hf with hthree
  · obtain ⟨rfl, rfl⟩ := Prod.mk.inj hf
    rw [encodeChar, toNat_charOfNat (by simp only [Nat.isValidChar]; omega), encodeCode,
      if_neg (by omega), if_neg (by omega), if_pos (by omega), toUInt8_eq (b := a) (by omega),
      toUInt8_eq (b := b) (by omega), toUInt8_eq (b := d) (by omega)]
    rfl
  rcases rest with _ | ⟨e, rest⟩
  · exact (notBroken hf).elim
  simp only at hf
  split_ifs at hf with hfour
  · obtain ⟨rfl, rfl⟩ := Prod.mk.inj hf
    rw [encodeChar, toNat_charOfNat (by simp only [Nat.isValidChar]; omega), encodeCode,
      if_neg (by omega), if_neg (by omega), if_neg (by omega), toUInt8_eq (b := a) (by omega),
      toUInt8_eq (b := b) (by omega), toUInt8_eq (b := d) (by omega),
      toUInt8_eq (b := e) (by omega)]
    rfl
  · exact (notBroken hf).elim

theorem take_of_front? {t : Text} {c : Char} {w : Nat} (hf : t.front? = some (c, w))
    (hc : c ≠ replacement) : t.take w = encodeChar c :=
  take_of_whole hf fun h => hc h.1

/-- An ASCII byte of a text is one of its characters. -/
theorem mem_chars_of_mem {t : Text} {b : UInt8} (hb : b.toNat < 0x80) (h : b ∈ t) :
    Char.ofNat b.toNat ∈ t.chars := by
  induction t using frontList.induct with
  | case1 t hf => cases t <;> simp_all [front?]
  | case2 t c w hf ih =>
    have ht : t.chars = c :: chars (t.drop w) := by
      rw [chars, frontList_of_front? hf]
      rfl
    rw [ht]
    -- the byte is the first character, or it comes after all bytes of that character
    rcases front?_bytes hf with ⟨a, rest, rfl, ha, rfl, rfl⟩ | hbytes
    · rcases List.mem_cons.1 h with rfl | h
      · exact List.mem_cons_self
      · exact List.mem_cons_of_mem _ (ih h)
    · rw [← List.take_append_drop w t] at h
      rcases List.mem_append.1 h with h | h
      · have := hbytes b h
        omega
      · exact List.mem_cons_of_mem _ (ih h)

/-- An ASCII byte is in a text exactly when its character is. -/
theorem mem_chars_iff {t : Text} {b : UInt8} (hb : b.toNat < 0x80) :
    Char.ofNat b.toNat ∈ t.chars ↔ b ∈ t := by
  refine ⟨fun h => ?_, mem_chars_of_mem hb⟩
  induction t using frontList.induct with
  | case1 t hf =>
    rw [eq_nil_of_front? hf, chars, frontList_nil] at h
    exact absurd h List.not_mem_nil
  | case2 t c w hf ih =>
    rw [chars, frontList_of_front? hf, List.map_cons, List.mem_cons] at h
    rcases h with rfl | h
    · have hcode : (Char.ofNat b.toNat).toNat = b.toNat := toNat_charOfNat (.inl (by omega))
      have hne : Char.ofNat b.toNat ≠ replacement := by
        intro heq
        rw [heq, show replacement.toNat = 0xFFFD from rfl] at hcode
        omega
      have htake := take_of_front? hf hne
      rw [encodeChar_of_lt (by omega), hcode, toUInt8_eq rfl] at htake
      exact List.mem_of_mem_take (htake ▸ List.mem_singleton_self b)
    · exact List.mem_of_mem_drop (ih h)

/-! ### Between characters -/

/-- The bytes of a character: the first continues none, and all others do. -/
theorem exists_encodeChar (c : Char) :
    ∃ a rest, encodeChar c = a :: rest ∧ isTail a = false ∧ ∀ b ∈ rest, isTail b := by
  obtain ⟨a, rest, hbytes⟩ := List.exists_cons_of_ne_nil (encodeChar_ne_nil c)
  have hfront := front?_encodeChar c []
  rw [List.append_nil, hbytes] at hfront
  have htails := front?_tails hfront
  rw [List.length_cons, Nat.add_sub_cancel, List.take_length] at htails
  refine ⟨a, rest, hbytes, ?_, htails⟩
  by_cases hc : c = replacement
  · have hlead : (encodeChar replacement).head? = some 0xEF := by decide +kernel
    rw [← hc, hbytes] at hlead
    rw [Option.some.inj hlead]
    decide
  · exact front?_head hfront hc

/-- A well-formed text begins with a byte that continues no character. -/
theorem isTail_head_of_isValid {t : Text} (h : t.isValid) : ∀ b ∈ t.head?, isTail b = false := by
  obtain ⟨cs, rfl⟩ := isValid_iff.1 h
  cases cs with
  | nil => simp [ofChars]
  | cons c cs =>
    obtain ⟨a, rest, hbytes, ha, -⟩ := exists_encodeChar c
    rw [ofChars, List.flatMap_cons, hbytes]
    rintro b ⟨⟩
    exact ha

/-- What comes after a well-formed text in one is well formed. -/
theorem isValid_of_append {s t : Text} (hs : s.isValid) (h : (s ++ t).isValid) : t.isValid := by
  obtain ⟨cs, rfl⟩ := isValid_iff.1 hs
  induction cs with
  | nil => exact h
  | cons c cs ih =>
    rw [ofChars, List.flatMap_cons, List.append_assoc] at h
    exact ih (isValid_ofChars cs) (isValid_of_encodeChar_append h)

/-- **A text cut where a byte continues no character** is well formed when both of its parts are. -/
theorem isValid_append_iff {s t : Text} (ht : ∀ b ∈ t.head?, isTail b = false) :
    (s ++ t).isValid ↔ s.isValid ∧ t.isValid := by
  refine ⟨fun h => ?_, fun ⟨hs, ht⟩ => isValid_append hs ht⟩
  suffices hs : s.isValid from ⟨hs, isValid_of_append hs h⟩
  obtain ⟨cs, hcs⟩ := isValid_iff.1 h
  clear h
  induction cs generalizing s with
  | nil => exact isValid_iff.2 ⟨[], (List.append_eq_nil_iff.1 hcs).1⟩
  | cons c cs ih =>
    rw [ofChars, List.flatMap_cons] at hcs
    rcases List.append_eq_append_iff.1 hcs with ⟨u, hu, hrest⟩ | ⟨u, rfl, hrest⟩
    · obtain ⟨a, rest, hbytes, ha, htails⟩ := exists_encodeChar c
      cases s with
      | nil => exact isValid_iff.2 ⟨[], rfl⟩
      | cons first s =>
        -- the cut is not within the character, whose other bytes continue it
        rw [hbytes, List.cons_append, List.cons.injEq] at hu
        obtain ⟨rfl, rfl⟩ := hu
        cases u with
        | nil => exact isValid_iff.2 ⟨[c], by simp [ofChars, hbytes]⟩
        | cons b u =>
          have hb := htails b (List.mem_append_right s List.mem_cons_self)
          rw [ht b (by rw [hrest]; rfl)] at hb
          exact absurd hb Bool.false_ne_true
    · exact isValid_append (isValid_encodeChar c) (ih hrest.symm)

theorem isTail_of_lt {b : UInt8} (hb : b.toNat < 0x80) : isTail b = false := by
  have hlow : ¬ 0x80 ≤ b.toNat := by omega
  rw [isTail, decide_eq_false hlow, Bool.false_and]

theorem front?_byte {b : UInt8} (hb : b.toNat < 0x80) (t : Text) :
    front? (b :: t) = some (Char.ofNat b.toNat, 1) := by
  simp only [front?, frontOf, if_pos hb]

theorem ofChars_byte {b : UInt8} (hb : b.toNat < 0x80) : ofChars [Char.ofNat b.toNat] = [b] := by
  have hcode := toNat_charOfNat (n := b.toNat) (.inl (by omega))
  rw [ofChars, List.flatMap_singleton, encodeChar_of_lt (by omega), hcode, toUInt8_eq rfl]

/-- **A well-formed text cut at an ASCII byte** leaves two well-formed texts. -/
theorem isValid_of_split {s t : Text} {b : UInt8} (hb : b.toNat < 0x80)
    (h : (s ++ b :: t).isValid) : s.isValid ∧ t.isValid := by
  have hbyte : Text.isValid [b] := isValid_iff.2 ⟨_, (ofChars_byte hb).symm⟩
  have hhead : ∀ d ∈ (b :: t).head?, isTail d = false := by
    rintro d ⟨⟩
    exact isTail_of_lt hb
  obtain ⟨hs, ht⟩ := (isValid_append_iff hhead).1 h
  exact ⟨hs, isValid_of_append hbyte ht⟩

/-! ### The last character -/

/-- The character that the last `w` bytes of a text spell. -/
def ending? (t : Text) (w : Nat) : Option Char :=
  if w ≤ t.length then
    match front? (t.drop (t.length - w)) with
    | some (c, v) => if v = w then some c else none
    | none => none
  else none

theorem last?_eq (t : Text) :
    t.last? = if t.isEmpty then none else
      (t.ending? 4).or ((t.ending? 3).or ((t.ending? 2).or ((t.ending? 1).or replacement))) := by
  unfold last?
  simp only
  split
  · rfl
  · -- what is matched on is `ending?` at each width
    split
    · rename_i h4
      change t.ending? 4 = _ at h4
      rw [h4]
      rfl
    · rename_i h4 h3
      change t.ending? 4 = _ at h4
      change t.ending? 3 = _ at h3
      rw [h4, h3]
      rfl
    · rename_i h4 h3 h2
      change t.ending? 4 = _ at h4
      change t.ending? 3 = _ at h3
      change t.ending? 2 = _ at h2
      rw [h4, h3, h2]
      rfl
    all_goals
      rename_i h4 h3 h2 h1
      change t.ending? 4 = _ at h4
      change t.ending? 3 = _ at h3
      change t.ending? 2 = _ at h2
      change t.ending? 1 = _ at h1
      rw [h4, h3, h2, h1]
      rfl

theorem ending?_length {s e : Text} {c : Char} (he : e.front? = some (c, e.length)) :
    (s ++ e).ending? e.length = some c := by
  simp [ending?, he]

/-- No longer ending of a text spells a character when a shorter one does: the lead byte of the
shorter one continues nothing. -/
theorem ending?_of_lt {s e : Text} {c : Char} {w : Nat} (he : e.front? = some (c, e.length))
    (hc : c ≠ replacement) (hw : e.length < w) : (s ++ e).ending? w = none := by
  unfold ending?
  split_ifs with hle
  · have hu : (s ++ e).drop ((s ++ e).length - w) = s.drop ((s ++ e).length - w) ++ e := by
      rw [List.drop_append_of_le_length]
      simp only [List.length_append]
      omega
    rw [hu]
    cases hd : s.drop ((s ++ e).length - w) with
    | nil =>
      have := congrArg List.length hd
      simp only [List.length_drop, List.length_append, List.length_nil] at this hle
      omega
    | cons a u =>
      have hlen := congrArg List.length hd
      simp only [List.length_drop, List.length_append, List.length_cons] at hlen hle
      cases hf : front? (a :: u ++ e) with
      | none => rfl
      | some p =>
        obtain ⟨d, v⟩ := p
        refine if_neg ?_
        rintro rfl
        cases e with
        | nil => simp [front?] at he
        | cons b e =>
          have htail : isTail b := by
            refine front?_tails hf b ?_
            simp only [List.length_cons] at hlen hw
            obtain ⟨k, hk⟩ : ∃ k, v - 1 - u.length = k + 1 := ⟨v - 2 - u.length, by omega⟩
            simp [List.take_append, hk]
          rw [front?_head he hc] at htail
          exact Bool.false_ne_true htail
  · rfl

/-- **The last character** of a text is the one that its last bytes spell. -/
theorem last?_append {s e : Text} {c : Char} (he : e.front? = some (c, e.length))
    (hc : c ≠ replacement) : (s ++ e).last? = some c := by
  have hpos := (front?_width he).1
  have hle := front?_width_le he
  have hempty : (s ++ e).isEmpty = false := by
    cases e
    · simp at hpos
    · simp
  have hlong (w : Nat) (hw : e.length < w) := ending?_of_lt (s := s) he hc hw
  have hend := ending?_length (s := s) he
  rw [last?_eq, hempty]
  obtain h | h | h | h : e.length = 1 ∨ e.length = 2 ∨ e.length = 3 ∨ e.length = 4 := by omega
  · simp [h ▸ hend, hlong 4 (by omega), hlong 3 (by omega), hlong 2 (by omega)]
  · simp [h ▸ hend, hlong 4 (by omega), hlong 3 (by omega)]
  · simp [h ▸ hend, hlong 4 (by omega)]
  · simp [h ▸ hend]

theorem ending?_eq_some {t : Text} {c : Char} {w : Nat} :
    t.ending? w = some c ↔ w ≤ t.length ∧ front? (t.drop (t.length - w)) = some (c, w) := by
  unfold ending?
  split_ifs with hw
  · cases hf : front? (t.drop (t.length - w)) with
    | none => simp
    | some front =>
      obtain ⟨d, v⟩ := front
      simp only [Option.some.injEq, Prod.mk.injEq]
      split_ifs with hv <;> simp [hw, hv]
  · simp [hw]

theorem ending?_isSome {t : Text} {w : Nat} :
    (t.ending? w).isSome = (w ≤ t.length && isFrontOfWidth (t.drop (t.length - w)) w) := by
  unfold ending? isFrontOfWidth
  split_ifs with hw
  · cases hf : front? (t.drop (t.length - w)) with
    | none => simp
    | some front =>
      obtain ⟨d, v⟩ := front
      by_cases hv : v = w <;> simp [hv, hw]
  · simp [hw]

/-- The last character takes the last bytes. -/
theorem ending?_lastWidth {t : Text} {c : Char} (h : t.last? = some c) (hc : c ≠ replacement) :
    t.ending? t.lastWidth = some c := by
  rw [last?_eq] at h
  simp only [lastWidth, ← ending?_isSome, List.find?]
  split_ifs at h
  cases h4 : t.ending? 4 with
  | some d => simp_all
  | none =>
    cases h3 : t.ending? 3 with
    | some d => simp_all
    | none =>
      cases h2 : t.ending? 2 with
      | some d => simp_all
      | none =>
        cases h1 : t.ending? 1 with
        | some d => simp_all
        | none => simp_all


/-! ### White space at the end -/

theorem blankWidth_nil : blankWidth [] = 0 := by
  rw [blankWidth]
  rfl

theorem blankWidth_of_front? {t : Text} {c : Char} {w : Nat} (h : t.front? = some (c, w)) :
    blankWidth t = if Unicode.isBlank c then w + blankWidth (t.drop w) else 0 := by
  rw [blankWidth]
  split
  · simp_all
  · simp_all

/-- A text that is all white space ends in a blank character. -/
theorem exists_blank_ending {t : Text} (hne : t ≠ []) (h : t.blankWidth = t.length) :
    ∃ s e c, t = s ++ e ∧ front? e = some (c, e.length) ∧ Unicode.isBlank c := by
  induction t using frontList.induct with
  | case1 t hf => cases t <;> simp_all [front?]
  | case2 t c w hf ih =>
    have hw := front?_width hf
    rw [blankWidth_of_front? hf] at h
    split_ifs at h with hc
    · by_cases hd : t.drop w = []
      · have hlen : w = t.length := by
          have := List.drop_eq_nil_iff.1 hd
          omega
        exact ⟨[], t, c, rfl, hlen ▸ hf, hc⟩
      · obtain ⟨s, e, d, he, hfe, hd⟩ := ih hd (by rw [List.length_drop]; omega)
        refine ⟨t.take w ++ s, e, d, ?_, hfe, hd⟩
        rw [List.append_assoc, ← he, List.take_append_drop]
    · exact absurd h.symm (by simpa using hne)

/-- What stands for broken bytes is no white space. -/
theorem ne_replacement_of_isBlank {c : Char} (hc : Unicode.isBlank c) : c ≠ replacement := by
  have hnot : Unicode.isBlank replacement = false := by decide
  rintro rfl
  exact Bool.false_ne_true (hnot.symm.trans hc)

/-- Where only white space is left of a text that does not end in white space, nothing is left. -/
theorem eq_length_of_skipBlank {t : Text} {i : Nat} (h : t.skipBlank i = t.length)
    (hb : t.endsBlank = false) : i = t.length := by
  by_contra hi
  unfold skipBlank at h
  have hne : t.drop i ≠ [] := by
    intro hd
    rw [hd, blankWidth_nil] at h
    omega
  obtain ⟨s, e, c, he, hf, hc⟩ := exists_blank_ending hne (by rw [List.length_drop]; omega)
  have ht : t = t.take i ++ s ++ e := by rw [List.append_assoc, ← he, List.take_append_drop]
  have hlast : t.last? = some c := by
    rw [ht]
    exact last?_append hf (ne_replacement_of_isBlank hc)
  rw [endsBlank, hlast] at hb
  exact Bool.false_ne_true (hb.symm.trans hc)

theorem le_length_of_skipBlank {t : Text} {i : Nat} (h : t.skipBlank i = t.length) :
    i ≤ t.length := by
  unfold skipBlank at h
  omega

end Text

end Phrasebook
