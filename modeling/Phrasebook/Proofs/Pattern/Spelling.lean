import Phrasebook.Proofs.Pattern.Brackets
import Phrasebook.Proofs.Pattern.Reading
import Phrasebook.Proofs.Text.Utf8

/-!
# Spelling of texts and marks

How the leaves of a tree and the marks of its branches are written, and what reads them back.

* `Pattern.escape_eq` : well-formed text is written with a backslash before each special byte.
* `Pattern.read?_escape_append` : and so it is read back as literal text.
* `Pattern.splitMark_eq_some` : a mark is a run of digits before its separator.
* `Pattern.splitMark_guardMark` : a guarded branch does not read as one with a mark.
* `Pattern.markOf_renderBranch` : a branch is read with the mark it was written with.
-/

namespace Phrasebook

namespace Pattern

variable {dialect : Regex.Dialect} {registry : Registry}

/-! ### Literal text -/

/-- Text with a backslash before each byte that has a meaning in patterns. -/
def escapeBytes (content : Text) : Text :=
  content.flatMap fun b => if b ∈ specialBytes then [0x5C, b] else [b]

theorem escapeBytes_cons (b : UInt8) (content : Text) :
    escapeBytes (b :: content) =
      (if b ∈ specialBytes then [0x5C, b] else [b]) ++ escapeBytes content := rfl

theorem escapeBytes_append (s t : Text) :
    escapeBytes (s ++ t) = escapeBytes s ++ escapeBytes t := by
  simp [escapeBytes]

theorem escapeBytes_of_plain {content : Text} (h : ∀ b ∈ content, b ∉ specialBytes) :
    escapeBytes content = content := by
  induction content with
  | nil => rfl
  | cons b content ih =>
    obtain ⟨hb, hc⟩ := List.forall_mem_cons.1 h
    rw [escapeBytes_cons, if_neg hb, ih hc]
    rfl

theorem lt_of_mem_specialBytes : ∀ b ∈ specialBytes, b.toNat < 0x80 :=
  List.all_iff_forall_prop.1 (by decide)

theorem escapeBytes_encodeChar (c : Char) :
    escapeBytes (Text.encodeChar c) =
      if isSpecial c then 0x5C :: Text.encodeChar c else Text.encodeChar c := by
  by_cases hc : c.toNat < 0x80
  · rw [Text.encodeChar_of_lt hc]
    by_cases hs : c.toNat.toUInt8 ∈ specialBytes
    · rw [if_pos (by simp [isSpecial, hc, hs])]
      simp [escapeBytes, hs]
    · rw [if_neg (by simp [isSpecial, hs])]
      simp [escapeBytes, hs]
  · -- no byte of a character beyond ASCII is special
    rw [if_neg (by simp [isSpecial, hc])]
    refine escapeBytes_of_plain fun b hb hs => ?_
    have := Text.le_of_mem_encodeChar (Nat.le_of_not_lt hc) b hb
    have := lt_of_mem_specialBytes b hs
    omega

/-- Well-formed text is written with a backslash before each byte that has a meaning. -/
theorem escape_eq {content : Text} (h : content.isValid) :
    escape content = escapeBytes content := by
  unfold escape
  split_ifs with hany
  · obtain ⟨cs, rfl⟩ := Text.isValid_iff.1 h
    rw [Text.chars_ofChars]
    clear h hany
    induction cs with
    | nil => rfl
    | cons c cs ih =>
      change _ = escapeBytes (Text.encodeChar c ++ Text.ofChars cs)
      rw [List.flatMap_cons, ih, escapeBytes_append, escapeBytes_encodeChar]
  · refine (escapeBytes_of_plain fun b hb hs => hany ?_).symm
    exact List.any_eq_true.2 ⟨b, hb, by simpa using hs⟩

theorem notMem_of_notMem_specialBytes {b : UInt8} (h : b ∉ specialBytes) :
    b ∉ ([0x5B, 0x28, 0x3C, 0x25, 0x5C] : Text) := by
  have hall : ∀ a ∈ ([0x5B, 0x28, 0x3C, 0x25, 0x5C] : Text), a ∈ specialBytes :=
    List.all_iff_forall_prop.1 (by decide)
  exact fun hb => h (hall b hb)

/-- Escaped text is read as literal text, whatever was read before and follows it. -/
theorem read?_escapeBytes (pending content rest : Text) :
    read? dialect registry pending (escapeBytes content ++ rest) =
      read? dialect registry (pending ++ content) rest := by
  induction content generalizing pending with
  | nil => simp [escapeBytes]
  | cons b content ih =>
    rw [escapeBytes_cons, List.append_assoc]
    split_ifs with hb
    · rw [List.cons_append, List.cons_append, List.nil_append, read?_escape, ih, List.append_assoc]
      rfl
    · rw [List.cons_append, List.nil_append, read?_plain _ _ (notMem_of_notMem_specialBytes hb), ih,
        List.append_assoc]
      rfl

theorem notMem_groupBytes {b : UInt8} (h : b ∉ specialBytes) : b ∉ groupBytes := by
  have hall : ∀ a ∈ groupBytes, a ∈ specialBytes := List.all_iff_forall_prop.1 (by decide)
  exact fun hb => h (hall b hb)

theorem walk_escapeBytes {step : Nat → UInt8 → Option Nat} (hs : Neutral step) (d : Nat)
    (content : Text) : walk step d (escapeBytes content) = some d := by
  induction content with
  | nil => rfl
  | cons b content ih =>
    rw [escapeBytes_cons]
    split_ifs with hb
    · change walk step d (0x5C :: b :: escapeBytes content) = some d
      rw [walk_escape, ih]
    · rw [walk_append (walk_of_neutral hs (by simpa using notMem_groupBytes hb)), ih]

/-! ### Marks -/

theorem after?_eq_some {head t rest : Text} :
    Text.after? head t = some rest ↔ t = head ++ rest := by
  unfold Text.after?
  split_ifs with h
  · obtain ⟨u, rfl⟩ := List.isPrefixOf_iff_prefix.1 h
    simp
  · simp only [false_iff]
    rintro rfl
    exact h (List.isPrefixOf_iff_prefix.2 (List.prefix_append _ _))

/-- The number that digits spell. -/
def digitsValue (digits : Text) : Nat :=
  (Binary64.readDigits 0 0 digits).1

theorem takeWhile_isDigit {digits : Text} (h : digits.all isDigit) (rest : Text) :
    (digits ++ markSeparator ++ rest).takeWhile isDigit = digits ∧
      (digits ++ markSeparator ++ rest).dropWhile isDigit = markSeparator ++ rest := by
  have hd : ∀ b ∈ digits, isDigit b := List.all_eq_true.1 h
  rw [List.append_assoc, List.takeWhile_append_of_pos hd, List.dropWhile_append_of_pos hd]
  refine ⟨?_, rfl⟩
  change digits ++ [] = digits
  rw [List.append_nil]

/-- **A mark** is a run of digits that fits, before its separator. -/
theorem splitMark_eq_some {t rest : Text} {mark : Mark} :
    splitMark t = some (mark, rest) ↔
      ∃ digits, t = digits ++ markSeparator ++ rest ∧ digits ≠ [] ∧ digits.all isDigit ∧
        digitsValue digits < Nat.pow 2 63 ∧ Int64.ofNat (digitsValue digits) = mark := by
  constructor
  · intro h
    unfold splitMark at h
    simp only at h
    split at h
    · simp at h
    · rename_i hempty
      split at h
      · simp at h
      · rename_i r hr
        split_ifs at h with hlt
        obtain ⟨hm, rfl⟩ := Prod.mk.inj (Option.some.inj h)
        refine ⟨t.takeWhile isDigit, ?_, by simpa using hempty, ?_, hlt, hm⟩
        · rw [List.append_assoc, ← after?_eq_some.1 hr, List.takeWhile_append_dropWhile]
        · exact List.all_takeWhile
  · rintro ⟨digits, rfl, hne, hall, hlt, rfl⟩
    obtain ⟨htake, hdrop⟩ := takeWhile_isDigit hall rest
    unfold splitMark
    simp only [htake, hdrop, after?_eq_some.2 rfl]
    rw [if_neg (by simpa using hne)]
    exact if_pos hlt

theorem guardMark_of_none {t : Text} (h : splitMark t = none) : guardMark t = t := by
  rw [guardMark, h]

/-- A branch that would read as one with a mark gets a backslash before the separator. -/
theorem guardMark_of_some {t : Text} {marked : Mark × Text} (h : splitMark t = some marked) :
    ∃ digits, t = digits ++ markSeparator ++ marked.2 ∧ digits.all isDigit ∧
      guardMark t = digits ++ 0x5C :: (markSeparator ++ marked.2) := by
  obtain ⟨mark, rest⟩ := marked
  obtain ⟨digits, ht, -, hall, -⟩ := splitMark_eq_some.1 h
  obtain ⟨htake, hdrop⟩ := takeWhile_isDigit hall rest
  refine ⟨digits, ht, hall, ?_⟩
  rw [guardMark, h]
  simp only
  rw [ht, htake, hdrop]

/-- Digits before a byte that is none are all the digits there are. -/
theorem digits_unique {s t u v : Text} {a b : UInt8} (hs : s.all isDigit) (ht : t.all isDigit)
    (ha : isDigit a = false) (hb : isDigit b = false) (h : s ++ a :: u = t ++ b :: v) :
    s = t ∧ a = b ∧ u = v := by
  induction s generalizing t with
  | nil =>
    cases t with
    | nil => simpa using h
    | cons c t =>
      rw [List.all_cons, Bool.and_eq_true] at ht
      obtain ⟨rfl, -⟩ := List.cons.inj h
      exact absurd ht.1 (by simp [ha])
  | cons c s ih =>
    rw [List.all_cons, Bool.and_eq_true] at hs
    cases t with
    | nil =>
      obtain ⟨rfl, -⟩ := List.cons.inj h
      exact absurd hs.1 (by simp [hb])
    | cons d t =>
      rw [List.all_cons, Bool.and_eq_true] at ht
      obtain ⟨rfl, htail⟩ := List.cons.inj h
      obtain ⟨rfl, hab, huv⟩ := ih hs.2 ht.2 htail
      exact ⟨rfl, hab, huv⟩

/-- **A guarded branch** does not read as one with a mark. -/
theorem splitMark_guardMark (t : Text) : splitMark (guardMark t) = none := by
  cases hs : splitMark t with
  | none => rw [guardMark_of_none hs, hs]
  | some marked =>
    obtain ⟨digits, -, hall, hg⟩ := guardMark_of_some hs
    rw [hg]
    cases hn : splitMark (digits ++ 0x5C :: (markSeparator ++ marked.2)) with
    | none => rfl
    | some marked' =>
      obtain ⟨mark, rest⟩ := marked'
      obtain ⟨digits', h, -, hall', -⟩ := splitMark_eq_some.1 hn
      rw [List.append_assoc] at h
      -- the same digits would stand before the backslash and before the separator
      obtain ⟨-, hbad, -⟩ := digits_unique hall hall' (by decide) (by decide) h
      exact absurd hbad (by decide)

theorem notMem_specialBytes_of_isDigit {b : UInt8} (h : isDigit b) : b ∉ specialBytes := by
  have hall : ∀ b ∈ specialBytes, isDigit b = false := List.all_iff_forall_prop.1 (by decide)
  intro hb
  rw [hall b hb] at h
  exact Bool.false_ne_true h

theorem read?_plainText {plain : Text} (h : ∀ b ∈ plain, b ∉ specialBytes) (pending rest : Text) :
    read? dialect registry pending (plain ++ rest) =
      read? dialect registry (pending ++ plain) rest := by
  rw [← read?_escapeBytes, escapeBytes_of_plain h]

/-- A guarded branch reads as the branch, if not for its mark. -/
theorem read?_guardMark (pending t : Text) :
    read? dialect registry pending (guardMark t) = read? dialect registry pending t := by
  cases h : splitMark t with
  | none => rw [guardMark_of_none h]
  | some marked =>
    obtain ⟨digits, ht, hall, hg⟩ := guardMark_of_some h
    have hplain : ∀ b ∈ digits, b ∉ specialBytes := fun b hb =>
      notMem_specialBytes_of_isDigit (List.all_eq_true.1 hall b hb)
    rw [hg, ht, List.append_assoc, read?_plainText hplain, read?_plainText hplain]
    -- the separator reads the same with a backslash before its first byte
    change read? dialect registry (pending ++ digits) (0x5C :: 0xC2 :: ([0xA6] ++ marked.2)) =
      read? dialect registry (pending ++ digits) (0xC2 :: ([0xA6] ++ marked.2))
    rw [read?_escape, read?_plain _ _ (by decide)]

/-! ### Numbers -/

theorem isDigit_of_char {c : Char} (h : c.isDigit) :
    c.toNat < 0x80 ∧ isDigit c.toNat.toUInt8 ∧ c.toNat.toUInt8.toNat = c.toNat ∧
      48 ≤ c.toNat ∧ c.toNat ≤ 57 := by
  have hc : 48 ≤ c.toNat ∧ c.toNat ≤ 57 := by
    simp only [Char.isDigit, Bool.and_eq_true, decide_eq_true_eq] at h
    exact ⟨h.1, h.2⟩
  have hto := Text.toNat_toUInt8 (n := c.toNat) (by omega)
  refine ⟨by omega, ?_, hto, hc⟩
  simp only [isDigit, Bool.and_eq_true, decide_eq_true_eq, UInt8.le_iff_toNat_le, hto]
  exact hc

theorem ofChars_digits (cs : List Char) (h : ∀ c ∈ cs, c.isDigit) :
    (Text.ofChars cs).all isDigit ∧
      ∀ value count, (Binary64.readDigits value count (Text.ofChars cs)).1 =
        Nat.ofDigitChars 10 cs value := by
  induction cs with
  | nil => exact ⟨rfl, fun value count => by simp [Text.ofChars, Binary64.readDigits]⟩
  | cons c cs ih =>
    obtain ⟨hc, hcs⟩ := List.forall_mem_cons.1 h
    obtain ⟨hlt, hdigit, hto, hrange⟩ := isDigit_of_char hc
    obtain ⟨hall, hvalue⟩ := ih hcs
    have hcons : Text.ofChars (c :: cs) = c.toNat.toUInt8 :: Text.ofChars cs := by
      change Text.encodeChar c ++ Text.ofChars cs = _
      rw [Text.encodeChar_of_lt hlt]
      rfl
    rw [hcons]
    refine ⟨by simp [hdigit, hall], fun value count => ?_⟩
    rw [Binary64.readDigits, if_pos (by rw [hto]; exact hrange), hvalue, Nat.ofDigitChars_cons, hto,
      Nat.mul_comm]
    rfl

theorem ofNat_digits (n : Nat) :
    Text.ofNat n ≠ [] ∧ (Text.ofNat n).all isDigit ∧ digitsValue (Text.ofNat n) = n := by
  unfold Text.ofNat Text.ofString
  rw [Nat.toList_repr]
  obtain ⟨hall, hvalue⟩ := ofChars_digits (Nat.toDigits 10 n)
    fun c hc => Nat.isDigit_of_mem_toDigits (by decide) (by decide) hc
  refine ⟨?_, hall, ?_⟩
  · intro hnil
    cases hd : Nat.toDigits 10 n with
    | nil => exact Nat.toDigits_ne_nil hd
    | cons c cs =>
      rw [hd] at hnil
      exact Text.encodeChar_ne_nil c (List.append_eq_nil_iff.1 hnil).1
  · rw [digitsValue, hvalue, Nat.ofDigitChars_toDigits (by decide) (by decide)]

/-- A mark that is not negative is written in digits that read back as it. -/
theorem ofInt_mark {mark : Mark} (h : 0 ≤ mark.toInt) :
    Text.ofInt mark.toInt ≠ [] ∧ (Text.ofInt mark.toInt).all isDigit ∧
      digitsValue (Text.ofInt mark.toInt) < Nat.pow 2 63 ∧
      Int64.ofNat (digitsValue (Text.ofInt mark.toInt)) = mark := by
  have hof : Text.ofInt mark.toInt = Text.ofNat mark.toInt.natAbs := if_neg (by omega)
  obtain ⟨hne, hall, hvalue⟩ := ofNat_digits mark.toInt.natAbs
  rw [hof, hvalue]
  refine ⟨hne, hall, ?_, ?_⟩
  · have := mark.toInt_lt
    change mark.toInt.natAbs < 9223372036854775808
    omega
  · rw [← Int64.ofInt_eq_ofNat, Int.natAbs_of_nonneg h, Int64.ofInt_toInt]

theorem toInt_nonneg_of_splitMark {t : Text} {marked : Mark × Text}
    (h : splitMark t = some marked) : 0 ≤ marked.1.toInt := by
  obtain ⟨mark, rest⟩ := marked
  obtain ⟨digits, -, -, -, hlt, rfl⟩ := splitMark_eq_some.1 h
  simp only
  rw [Int64.toInt_ofNat_of_lt hlt]
  omega

/-- **A branch** is read with the mark and the pattern it was written with. -/
theorem markOf_renderBranch {mark : Mark} (h : 0 ≤ mark.toInt) (branch : Text) :
    markOf (renderBranch mark branch) =
      (mark, if mark = 0 then guardMark branch else branch) := by
  unfold renderBranch markOf
  split_ifs with h0
  · rw [splitMark_guardMark, h0]
  · obtain ⟨hne, hall, hlt, hmark⟩ := ofInt_mark h
    rw [splitMark_eq_some.2 ⟨_, rfl, hne, hall, hlt, hmark⟩]

/-! ### Marks and brackets -/

section Walks

variable {step : Nat → UInt8 → Option Nat} (hs : Neutral step) (d : Nat)
include hs

theorem walk_digits {digits : Text} (h : digits.all isDigit) : walk step d digits = some d :=
  walk_of_neutral hs fun b hb =>
    notMem_groupBytes (notMem_specialBytes_of_isDigit (List.all_eq_true.1 h b hb))

theorem walk_markSeparator : walk step d markSeparator = some d :=
  walk_of_neutral hs (List.all_iff_forall_prop.1 (by decide))

theorem walk_guardMark (t : Text) : walk step d (guardMark t) = walk step d t := by
  cases h : splitMark t with
  | none => rw [guardMark_of_none h]
  | some marked =>
    obtain ⟨digits, ht, hall, hg⟩ := guardMark_of_some h
    rw [hg, ht, List.append_assoc, walk_append (walk_digits hs d hall),
      walk_append (walk_digits hs d hall), walk_append (walk_markSeparator hs d)]
    change walk step d (0x5C :: 0xC2 :: ([0xA6] ++ marked.2)) = _
    rw [walk_escape, walk_append (walk_of_neutral hs (List.all_iff_forall_prop.1 (by decide)))]

theorem walk_renderBranch {mark : Mark} (h : 0 ≤ mark.toInt) (branch : Text) :
    walk step d (renderBranch mark branch) = walk step d branch := by
  unfold renderBranch
  split_ifs
  · exact walk_guardMark hs d branch
  · obtain ⟨-, hall, -⟩ := ofInt_mark h
    rw [List.append_assoc, walk_append (walk_digits hs d hall),
      walk_append (walk_markSeparator hs d)]

end Walks

end Pattern

end Phrasebook
