import Phrasebook.Match.Literal
import Phrasebook.Proofs.Text.Utf8

/-!
# White space

What passing over white space does, and that letter case has no part in it.

* `Text.skipBlank_skipBlank` : white space is passed over at once.
* `Unicode.isBlank_toLower`, `Unicode.isBlank_toUpper` : the forms of a character are blank when it
  is.  The case tables are long, so this is checked run by run: no run holds a blank character, and
  none moves a character onto one.
* `Piece.isBlank_of_sameChar` : characters that count as the same are both blank or neither.
* `Text.isValid_trim` : trimming cuts off whole characters.
* `Text.frontList_append`, `Text.skipBlank_append` : white space put after a text changes neither its
  characters nor, but at the end, where white space ends in it.
-/

namespace Phrasebook

namespace Unicode

/-- The runs of code points of white space, each from its first to its last. -/
def blankRuns : List (Nat × Nat) :=
  [(9, 13), (0x20, 0x20), (0x85, 0x85), (0xA0, 0xA0), (0x1680, 0x1680), (0x2000, 0x200A),
    (0x2028, 0x2029), (0x202F, 0x202F), (0x205F, 0x205F), (0x3000, 0x3000)]

theorem isBlank_iff {c : Char} :
    isBlank c ↔ ∃ run ∈ blankRuns, run.1 ≤ c.toNat ∧ c.toNat ≤ run.2 := by
  simp only [isBlank, blankRuns, Bool.or_eq_true, Bool.and_eq_true, decide_eq_true_eq, beq_iff_eq,
    List.exists_mem_cons_iff, List.not_mem_nil, false_and, exists_false, or_false]
  omega

theorem blankRuns_pos : ∀ run ∈ blankRuns, 0 < run.1 := by decide

theorem isBlank_ofNat {n : Nat} (h : ∀ run ∈ blankRuns, n < run.1 ∨ run.2 < n) :
    isBlank (Char.ofNat n) = false := by
  rw [Bool.eq_false_iff, ne_eq, isBlank_iff]
  rintro ⟨run, hrun, hfirst, hlast⟩
  -- the first character is no white space either
  have hcode := Text.toNat_charOfNat_or n
  have hclear := h run hrun
  have hpos := blankRuns_pos run hrun
  omega

theorem isBlank_ofNat_letter {n : Nat} (hfirst : 0x41 ≤ n) (hlast : n ≤ 0x7A) :
    isBlank (Char.ofNat n) = false := by
  have hclear : ∀ run ∈ blankRuns, run.2 < 0x41 ∨ 0x7A < run.1 := by decide
  refine isBlank_ofNat fun run hrun => ?_
  have := hclear run hrun
  omega

namespace CaseRun

/-- Whether a run holds no white space and moves nothing onto any. -/
def sparesBlanks (run : CaseRun) : Bool :=
  blankRuns.all fun blank =>
    (blank.2 < run.first || run.last < blank.1) &&
      ((blank.2 : Int) < run.first + run.shift || run.last + run.shift < (blank.1 : Int))

theorem isBlank_of_holds {run : CaseRun} {c : Char} (hrun : run.sparesBlanks)
    (h : run.holds c.toNat) :
    isBlank c = false ∧ isBlank (Char.ofNat (Int.toNat (c.toNat + run.shift))) = false := by
  simp only [holds, Bool.and_eq_true, decide_eq_true_eq] at h
  simp only [sparesBlanks, List.all_eq_true, Bool.and_eq_true, Bool.or_eq_true,
    decide_eq_true_eq] at hrun
  constructor
  · rw [← Char.ofNat_toNat c]
    refine isBlank_ofNat fun blank hmem => ?_
    have := (hrun blank hmem).1
    omega
  · refine isBlank_ofNat fun blank hmem => ?_
    have hmoved := (hrun blank hmem).2
    have hpos := blankRuns_pos blank hmem
    omega

theorem isBlank_move {runs : List CaseRun} (hruns : runs.all sparesBlanks) (c : Char) :
    isBlank (move runs c) = isBlank c := by
  unfold move
  cases hfind : runs.find? fun run => run.holds c.toNat with
  | none => rfl
  | some run =>
    have hspares := List.all_eq_true.1 hruns run (List.mem_of_find?_eq_some hfind)
    have hholds : run.holds c.toNat :=
      List.find?_some (p := fun run : CaseRun => run.holds c.toNat) hfind
    obtain ⟨hc, hmoved⟩ := isBlank_of_holds hspares hholds
    exact hmoved.trans hc.symm

end CaseRun

-- the tables are opened as lists of characters before they are evaluated: a text decodes its bytes

theorem sparesBlanks_lowerRuns : lowerRuns.all CaseRun.sparesBlanks := by
  unfold lowerRuns CaseRun.ofText lowerText
  simp only [String.toList_append, List.append_assoc]
  repeat rw [String.toList_ofList]
  decide +kernel

theorem sparesBlanks_upperRuns : upperRuns.all CaseRun.sparesBlanks := by
  unfold upperRuns CaseRun.ofText upperText
  simp only [String.toList_append, List.append_assoc]
  repeat rw [String.toList_ofList]
  decide +kernel

theorem isBlank_toLower (c : Char) : isBlank (toLower c) = isBlank c := by
  unfold toLower
  split_ifs with hascii hletter
  · have hc := isBlank_ofNat_letter (n := c.toNat) (by omega) (by omega)
    rw [Char.ofNat_toNat] at hc
    rw [hc, isBlank_ofNat_letter (by omega) (by omega)]
  · rfl
  · exact CaseRun.isBlank_move sparesBlanks_lowerRuns c

theorem isBlank_toUpper (c : Char) : isBlank (toUpper c) = isBlank c := by
  unfold toUpper
  split_ifs with hascii hletter
  · have hc := isBlank_ofNat_letter (n := c.toNat) (by omega) (by omega)
    rw [Char.ofNat_toNat] at hc
    rw [hc, isBlank_ofNat_letter (by omega) (by omega)]
  · rfl
  · exact CaseRun.isBlank_move sparesBlanks_upperRuns c

end Unicode

/-- **Characters that count as the same** are both blank or neither. -/
theorem Piece.isBlank_of_sameChar {caseSensitive : Bool} {a b : Char}
    (h : sameChar caseSensitive a b) : Unicode.isBlank a = Unicode.isBlank b := by
  simp only [sameChar, Bool.or_eq_true, Bool.and_eq_true, beq_iff_eq] at h
  rcases h with rfl | ⟨-, hlower | hupper⟩
  · rfl
  · rw [← Unicode.isBlank_toLower a, hlower, Unicode.isBlank_toLower]
  · rw [← Unicode.isBlank_toUpper a, hupper, Unicode.isBlank_toUpper]

namespace Text

theorem blankWidth_of_startsBlank {t : Text} (h : t.startsBlank = false) : t.blankWidth = 0 := by
  unfold startsBlank at h
  cases hf : t.front? with
  | none =>
    rw [blankWidth]
    split <;> simp_all
  | some front =>
    obtain ⟨c, w⟩ := front
    simp only [hf] at h
    rw [blankWidth_of_front? hf, h]
    rfl

theorem blankWidth_drop_blankWidth (t : Text) : blankWidth (t.drop t.blankWidth) = 0 := by
  induction t using frontList.induct with
  | case1 t hf => rw [eq_nil_of_front? hf, blankWidth_nil, List.drop_nil, blankWidth_nil]
  | case2 t c w hf ih =>
    rw [blankWidth_of_front? hf]
    split_ifs with hc
    · rw [← List.drop_drop]
      exact ih
    · rw [List.drop_zero, blankWidth_of_front? hf, if_neg hc]

/-- A place that is not blank is where the white space at it ends. -/
theorem skipBlank_of_startsBlank {t : Text} {pos : Nat}
    (h : Text.startsBlank (t.drop pos) = false) : t.skipBlank pos = pos := by
  rw [skipBlank, blankWidth_of_startsBlank h, Nat.add_zero]

theorem skipBlank_skipBlank (t : Text) (pos : Nat) :
    t.skipBlank (t.skipBlank pos) = t.skipBlank pos := by
  unfold skipBlank
  rw [← List.drop_drop, blankWidth_drop_blankWidth, Nat.add_zero]

theorem blankWidth_le (t : Text) : t.blankWidth ≤ t.length := by
  induction t using frontList.induct with
  | case1 t hf =>
    rw [eq_nil_of_front? hf, blankWidth_nil]
    exact Nat.zero_le _
  | case2 t c w hf ih =>
    have hw := front?_width hf
    rw [blankWidth_of_front? hf]
    rw [List.length_drop] at ih
    split_ifs <;> omega

theorem skipBlank_le {t : Text} {pos : Nat} (h : pos ≤ t.length) : t.skipBlank pos ≤ t.length := by
  have hwidth := blankWidth_le (t.drop pos)
  rw [List.length_drop] at hwidth
  unfold skipBlank
  omega

theorem skipBlank_length (t : Text) : t.skipBlank t.length = t.length := by
  rw [skipBlank, List.drop_length, blankWidth_nil, Nat.add_zero]

/-! ### Trimming -/

theorem blankWidth_cons_blank (t : Text) : blankWidth (0x20 :: t) = 1 + blankWidth t := by
  have hfront : front? (0x20 :: t) = some (' ', 1) := rfl
  rw [blankWidth_of_front? hfront, if_pos (by decide)]
  rfl

/-- A blank in front of a text is trimmed away. -/
theorem trim_cons_blank (t : Text) : trim (0x20 :: t) = trim t := by
  rw [trim, trim, trimLeft, trimLeft, blankWidth_cons_blank, Nat.add_comm, List.drop_succ_cons]

/-- White space at the end of a text is a character there in its own bytes. -/
theorem exists_of_endsBlank {t : Text} (h : t.endsBlank) :
    ∃ c, t = t.take (t.length - max 1 t.lastWidth) ++ encodeChar c := by
  unfold endsBlank at h
  cases hlast : t.last? with
  | none => simp [hlast] at h
  | some c =>
    simp only [hlast] at h
    have hc := ne_replacement_of_isBlank h
    obtain ⟨hw, hfront⟩ := ending?_eq_some.1 (ending?_lastWidth hlast hc)
    have hbytes := take_of_front? hfront hc
    have hpos := (front?_width hfront).1
    rw [List.take_of_length_le (by rw [List.length_drop]; omega)] at hbytes
    refine ⟨c, ?_⟩
    rw [Nat.max_eq_right hpos, ← hbytes, List.take_append_drop]

theorem isValid_trimRight (t : Text) : t.trimRight.isValid ↔ t.isValid := by
  induction t using trimRight.induct with
  | case1 t h ih =>
    obtain ⟨c, hc⟩ := exists_of_endsBlank h.2
    have hhead := isTail_head_of_isValid (isValid_encodeChar c)
    rw [trimRight, dif_pos h, ih]
    conv_rhs => rw [hc]
    rw [isValid_append_iff hhead, and_iff_left (isValid_encodeChar c)]
  | case2 t h => rw [trimRight, dif_neg h]

theorem isValid_trimLeft (t : Text) : t.trimLeft.isValid ↔ t.isValid := by
  unfold trimLeft
  induction t using frontList.induct with
  | case1 t hf => rw [eq_nil_of_front? hf, List.drop_nil]
  | case2 t c w hf ih =>
    rw [blankWidth_of_front? hf]
    split_ifs with hc
    · have hbytes := take_of_front? hf (ne_replacement_of_isBlank hc)
      have ht : t = encodeChar c ++ t.drop w := by rw [← hbytes, List.take_append_drop]
      rw [← List.drop_drop, ih]
      conv_rhs => rw [ht]
      exact ⟨isValid_append (isValid_encodeChar c), isValid_of_encodeChar_append⟩
    · rw [List.drop_zero]

/-- **Trimming cuts off whole characters**: what is left of a text is well formed when it was. -/
theorem isValid_trim (t : Text) : t.trim.isValid ↔ t.isValid := by
  rw [trim, isValid_trimRight, isValid_trimLeft]

/-! ### White space after a text -/

/-- A character ends before a byte that continues none. -/
theorem frontOf_append (a : UInt8) (rest : Text) {t : Text} (ht : ∀ b ∈ t.head?, isTail b = false) :
    frontOf a (rest ++ t) = frontOf a rest := by
  cases t with
  | nil => rw [List.append_nil]
  | cons b t =>
    have hb : isTail b = false := ht b rfl
    -- no more than three bytes after the first are looked at, and the new one continues nothing
    match rest with
    | [] | [_] | [_, _] =>
      unfold frontOf
      simp only [List.nil_append, List.cons_append, hb, Bool.false_eq_true, false_and, and_false,
        ↓reduceIte]
      repeat' split
      all_goals simp_all
    | _ :: _ :: _ :: _ => rfl

theorem front?_append {s t : Text} {c : Char} {w : Nat} (hf : s.front? = some (c, w))
    (ht : ∀ b ∈ t.head?, isTail b = false) : front? (s ++ t) = some (c, w) := by
  cases s with
  | nil => simp [front?] at hf
  | cons a rest => exact (congrArg some (frontOf_append a rest ht)).trans hf

theorem ofChars_cons (c : Char) (cs : List Char) :
    ofChars (c :: cs) = encodeChar c ++ ofChars cs := rfl

section Blanks

variable {blanks : List Char}

theorem blankWidth_ofChars (hblanks : ∀ c ∈ blanks, Unicode.isBlank c) :
    blankWidth (ofChars blanks) = (ofChars blanks).length := by
  induction blanks with
  | nil => exact blankWidth_nil
  | cons c cs ih =>
    have hc := hblanks c List.mem_cons_self
    have hcs := ih fun d hd => hblanks d (List.mem_cons_of_mem _ hd)
    rw [ofChars_cons, blankWidth_of_front? (front?_encodeChar c _), if_pos hc, List.drop_left, hcs,
      List.length_append]

theorem blankWidth_append (hblanks : ∀ c ∈ blanks, Unicode.isBlank c) (s : Text) :
    blankWidth (s ++ ofChars blanks) =
      if s.blankWidth = s.length then (s ++ ofChars blanks).length else s.blankWidth := by
  induction s using frontList.induct with
  | case1 s hf =>
    rw [eq_nil_of_front? hf, List.nil_append, blankWidth_ofChars hblanks, blankWidth_nil]
    rfl
  | case2 s c w hf ih =>
    have hw := front?_width hf
    have hf' := front?_append hf (isTail_head_of_isValid (isValid_ofChars blanks))
    rw [blankWidth_of_front? hf', blankWidth_of_front? hf, List.drop_append_of_le_length hw.2, ih]
    simp only [List.length_append, List.length_drop]
    split_ifs <;> omega

/-- The characters of a text are the same with whole characters after it. -/
theorem frontList_append (s : Text) :
    frontList (s ++ ofChars blanks) = frontList s ++ frontList (ofChars blanks) := by
  induction s using frontList.induct with
  | case1 s hf =>
    rw [eq_nil_of_front? hf, frontList_nil]
    rfl
  | case2 s c w hf ih =>
    have hw := front?_width hf
    have hf' := front?_append hf (isTail_head_of_isValid (isValid_ofChars blanks))
    rw [frontList_of_front? hf', frontList_of_front? hf, List.drop_append_of_le_length hw.2, ih]
    rfl

/-- **White space after a text** is passed over with the white space at its end. -/
theorem skipBlank_append (hblanks : ∀ c ∈ blanks, Unicode.isBlank c) {s : Text} {i : Nat}
    (hi : i ≤ s.length) :
    (s ++ ofChars blanks).skipBlank i =
      if s.skipBlank i = s.length then (s ++ ofChars blanks).length else s.skipBlank i := by
  unfold skipBlank
  rw [List.drop_append_of_le_length hi, blankWidth_append hblanks]
  simp only [List.length_append, List.length_drop]
  split_ifs <;> omega

end Blanks

end Text

end Phrasebook
