import Mathlib.Data.Bool.AllAny
import Phrasebook.Files.Scan
import Phrasebook.Proofs.Text.Utf8

/-!
# Extensions of definition files

The extension of a path is brought into lower case by the tables of all characters.  Characters
outside of ASCII could get the letters of an extension that way.  The table is long, so it is
checked run by run that none does, and only the two cases of ASCII letters remain.

* `Unicode.toLower_toNat_ne` : no other character has a letter of an extension for its lower case.
* `Text.lower_eq_iff` : so a text becomes an extension exactly when its ASCII letters do.
* `Format.Ends` : paths that end with an extension of a format.
* `Entry.formatOf?_eq_some_iff` : **the format of a path is the one that its end stands for.**
-/

namespace Phrasebook

namespace Unicode

/-- The code points in the extensions of definition files: the point and `a l m o t y`. -/
def extensionCodes : List Nat := [0x2E, 0x61, 0x6C, 0x6D, 0x6F, 0x74, 0x79]

theorem lt_of_mem_extensionCodes {code : Nat} (h : code ∈ extensionCodes) : code < 0x80 := by
  revert code
  decide

namespace CaseRun

/-- Whether a run holds ASCII characters only, or moves nothing onto a code point of extensions. -/
def sparesExtensions (run : CaseRun) : Bool :=
  run.last < 0x80 ||
    extensionCodes.all fun code =>
      (code : Int) < run.first + run.shift || run.last + run.shift < (code : Int)

theorem sparesExtensions_lowerRuns : lowerRuns.all sparesExtensions := by
  unfold lowerRuns ofText lowerText
  simp only [String.toList_append, List.append_assoc]
  repeat rw [String.toList_ofList]
  decide +kernel

theorem moved_notMem {run : CaseRun} {c : Char} (hrun : run.sparesExtensions)
    (h : run.holds c.toNat) (hc : 0x80 ≤ c.toNat) :
    (Char.ofNat (Int.toNat (c.toNat + run.shift))).toNat ∉ extensionCodes := by
  intro hmem
  simp only [holds, Bool.and_eq_true, decide_eq_true_eq] at h
  simp only [sparesExtensions, List.all_eq_true, Bool.or_eq_true, decide_eq_true_eq] at hrun
  rcases hrun with hascii | hrun
  · omega
  · have hspares := hrun _ hmem
    have hpos : ∀ code ∈ extensionCodes, 0 < code := by decide
    have hcode := hpos _ hmem
    have hmoved := Text.toNat_charOfNat_or (Int.toNat (c.toNat + run.shift))
    omega

end CaseRun

/-- No character outside of ASCII has a letter of an extension for its lower case. -/
theorem toLower_notMem {c : Char} (hc : 0x80 ≤ c.toNat) : (toLower c).toNat ∉ extensionCodes := by
  rw [toLower, if_neg (by omega), CaseRun.move]
  cases hfind : lowerRuns.find? fun run => run.holds c.toNat with
  | none =>
    exact fun hmem => absurd hc (Nat.not_le.2 (lt_of_mem_extensionCodes hmem))
  | some run =>
    have hspares := List.all_eq_true.1 CaseRun.sparesExtensions_lowerRuns run
      (List.mem_of_find?_eq_some hfind)
    have hholds : run.holds c.toNat :=
      List.find?_some (p := fun run : CaseRun => run.holds c.toNat) hfind
    exact CaseRun.moved_notMem hspares hholds hc

end Unicode

namespace Text

/-- An ASCII letter in lower case. -/
def lowerByte (b : UInt8) : UInt8 :=
  if 0x41 ≤ b ∧ b ≤ 0x5A then b + 0x20 else b

/-- A text with its ASCII letters in lower case. -/
def lowerLetters (t : Text) : Text :=
  t.map lowerByte

/-- Bytes below the lower-case letters come from themselves only. -/
theorem eq_of_lowerByte {b c : UInt8} (hc : c < 0x61) (h : lowerByte b = c) : b = c := by
  unfold lowerByte at h
  split_ifs at h with hletter
  · obtain ⟨hfirst, hlast⟩ := hletter
    subst h
    rw [UInt8.lt_iff_toNat_lt, UInt8.toNat_add] at hc
    rw [UInt8.le_iff_toNat_le] at hfirst hlast
    simp at hc hfirst hlast
    omega
  · exact h

theorem encodeChar_toLower {c : Char} (hc : c.toNat < 0x80) :
    encodeChar (Unicode.toLower c) = (encodeChar c).map lowerByte := by
  have hbyte := toNat_toUInt8 (n := c.toNat) (by omega)
  rw [encodeChar_of_lt hc, Unicode.toLower, if_pos hc, List.map_singleton, lowerByte]
  simp only [UInt8.le_iff_toNat_le, hbyte, UInt8.toNat_ofNat]
  split_ifs with h
  · have hcode : (Char.ofNat (c.toNat + 32)).toNat = c.toNat + 32 :=
      toNat_charOfNat (.inl (by omega))
    rw [encodeChar_of_lt (by omega), hcode]
    exact congrArg (fun b => [b]) (toUInt8_eq (by rw [UInt8.toNat_add, hbyte]; simp; omega))
  · exact encodeChar_of_lt hc

theorem lower_ofChars {cs : List Char} (h : ∀ c ∈ cs, c.toNat < 0x80) :
    lower (ofChars cs) = lowerLetters (ofChars cs) := by
  rw [lower, chars_ofChars]
  induction cs with
  | nil => rfl
  | cons c cs ih =>
    obtain ⟨hc, hcs⟩ := List.forall_mem_cons.1 h
    change encodeChar (Unicode.toLower c) ++ ofChars (cs.map Unicode.toLower) =
      (encodeChar c ++ ofChars cs).map lowerByte
    rw [List.map_append, encodeChar_toLower hc, ih hcs]
    rfl

theorem exists_ofChars_of_bytes {t : Text} (h : ∀ b ∈ t, b.toNat < 0x80) :
    ∃ cs, t = ofChars cs ∧ ∀ c ∈ cs, c.toNat < 0x80 := by
  induction t with
  | nil => exact ⟨[], rfl, by simp⟩
  | cons b t ih =>
    obtain ⟨hb, ht⟩ := List.forall_mem_cons.1 h
    obtain ⟨cs, rfl, hcs⟩ := ih ht
    have hcode : (Char.ofNat b.toNat).toNat = b.toNat := toNat_charOfNat (.inl (by omega))
    refine ⟨Char.ofNat b.toNat :: cs, ?_, List.forall_mem_cons.2 ⟨by omega, hcs⟩⟩
    change b :: ofChars cs = encodeChar (Char.ofNat b.toNat) ++ ofChars cs
    rw [encodeChar_of_lt (by omega), hcode, toUInt8_eq rfl, List.singleton_append]

theorem eq_ofChars_of_chars {t : Text} (h : ∀ c ∈ t.chars, c.toNat < 0x80) :
    t = ofChars t.chars := by
  induction t using frontList.induct with
  | case1 t hf =>
    rw [eq_nil_of_front? hf, chars, frontList_nil]
    rfl
  | case2 t c w hf ih =>
    have hchars : t.chars = c :: chars (t.drop w) := by
      rw [chars, frontList_of_front? hf]
      rfl
    rw [hchars] at h
    obtain ⟨hc, hrest⟩ := List.forall_mem_cons.1 h
    have hne : c ≠ replacement := by
      rintro rfl
      exact absurd hc (by decide)
    calc t = t.take w ++ t.drop w := (List.take_append_drop w t).symm
      _ = encodeChar c ++ ofChars (chars (t.drop w)) := by rw [take_of_front? hf hne, ← ih hrest]
      _ = ofChars t.chars := by rw [hchars]; rfl

theorem toNat_mem_extensionCodes {c : Char}
    (h : ∀ b ∈ encodeChar c, b.toNat ∈ Unicode.extensionCodes) :
    c.toNat ∈ Unicode.extensionCodes := by
  obtain ⟨b, bytes, hbytes⟩ := List.exists_cons_of_ne_nil (encodeChar_ne_nil c)
  have hb : b ∈ encodeChar c := hbytes ▸ List.mem_cons_self
  rw [toNat_eq_of_mem_encodeChar hb (Unicode.lt_of_mem_extensionCodes (h b hb))]
  exact h b hb

theorem lower_eq_lowerLetters {t : Text} (h : ∀ c ∈ t.chars, c.toNat < 0x80) :
    t.lower = t.lowerLetters := by
  have ht := eq_ofChars_of_chars h
  have hlower := lower_ofChars h
  rwa [← ht] at hlower

/-- **A text becomes an extension exactly when its ASCII letters do.** -/
theorem lower_eq_iff {t w : Text} (hw : ∀ b ∈ w, b.toNat ∈ Unicode.extensionCodes) :
    t.lower = w ↔ t.lowerLetters = w := by
  constructor
  · intro h
    -- what becomes a letter of the extension was an ASCII character
    have hascii : ∀ c ∈ t.chars, c.toNat < 0x80 := by
      intro c hc
      by_contra hlarge
      refine Unicode.toLower_notMem (Nat.not_lt.1 hlarge) (toNat_mem_extensionCodes fun b hb => ?_)
      exact hw b (h ▸ List.mem_flatMap.2 ⟨_, List.mem_map_of_mem hc, hb⟩)
    rw [← lower_eq_lowerLetters hascii, h]
  · intro h
    have hbytes : ∀ b ∈ t, b.toNat < 0x80 := by
      intro b hb
      have hmem : lowerByte b ∈ w := by
        rw [← h]
        exact List.mem_map_of_mem hb
      have hlower := Unicode.lt_of_mem_extensionCodes (hw _ hmem)
      unfold lowerByte at hlower
      split_ifs at hlower with hletter
      · exact Nat.lt_of_le_of_lt (UInt8.le_iff_toNat_le.1 hletter.2) (by decide)
      · exact hlower
    obtain ⟨cs, rfl, hcs⟩ := exists_ofChars_of_bytes hbytes
    rw [lower_ofChars hcs, h]

end Text

namespace Format

/-- The extensions of a format. -/
def extensions : Format → List Text
  | .yaml => [Text.ofString ".yaml", Text.ofString ".yml"]
  | .toml => [Text.ofString ".toml"]

/-- Paths that end with an extension of a format, in letters of any case. -/
def Ends (format : Format) (path : Text) : Prop :=
  ∃ stem ending, path = stem ++ ending ∧ Text.lowerLetters ending ∈ format.extensions

theorem ofExtension?_eq_some_iff {ending : Text} {format : Format} :
    ofExtension? ending = some format ↔ ending.lowerLetters ∈ format.extensions := by
  have hyaml : ending.lower = Text.ofString ".yaml" ↔ _ :=
    Text.lower_eq_iff (List.all_iff_forall_prop.1 (by decide))
  have hyml : ending.lower = Text.ofString ".yml" ↔ _ :=
    Text.lower_eq_iff (List.all_iff_forall_prop.1 (by decide))
  have htoml : ending.lower = Text.ofString ".toml" ↔ _ :=
    Text.lower_eq_iff (List.all_iff_forall_prop.1 (by decide))
  simp only [ofExtension?, hyaml, hyml, htoml]
  have hother : Text.ofString ".toml" ≠ Text.ofString ".yaml" ∧
      Text.ofString ".toml" ≠ Text.ofString ".yml" := by decide
  cases format with
  | yaml =>
    simp only [extensions, List.mem_cons, List.not_mem_nil, or_false]
    split_ifs <;> simp_all
  | toml =>
    simp only [extensions, List.mem_cons, List.not_mem_nil, or_false]
    split_ifs with hfirst hsecond
    · rcases hfirst with h | h <;> rw [h] <;> simp [hother.1.symm, hother.2.symm]
    · simp [hsecond]
    · simp [hsecond]

theorem extension_eq (path : Text) :
    extension path =
      if (path.reverse.takeWhile (· != 0x2F)).contains 0x2E then
        ((path.reverse.takeWhile (· != 0x2F)).takeWhile (· != 0x2E) ++ [0x2E]).reverse
      else [] := rfl

/-- An extension is a point and letters. -/
theorem exists_of_lowerLetters {format : Format} {ending : Text}
    (h : ending.lowerLetters ∈ format.extensions) :
    ∃ letters, ending = 0x2E :: letters ∧ ∀ b ∈ letters, b ≠ 0x2E ∧ b ≠ 0x2F := by
  have hword : ∃ word, ending.lowerLetters = 0x2E :: word ∧ 0x2E ∉ word ∧ 0x2F ∉ word := by
    cases format with
    | yaml =>
      rcases List.mem_cons.1 h with h | h
      · exact ⟨_, h, by decide, by decide⟩
      · exact ⟨_, List.mem_singleton.1 h, by decide, by decide⟩
    | toml => exact ⟨_, List.mem_singleton.1 h, by decide, by decide⟩
  obtain ⟨word, hending, hpoint, hslash⟩ := hword
  obtain ⟨b, letters, rfl, hb, rfl⟩ := List.map_eq_cons_iff.1 hending
  obtain rfl : b = 0x2E := Text.eq_of_lowerByte (by decide) hb
  refine ⟨letters, rfl, fun b hmem => ⟨?_, ?_⟩⟩
  · rintro rfl
    exact hpoint (List.mem_map_of_mem hmem)
  · rintro rfl
    exact hslash (List.mem_map_of_mem hmem)

/-- An extension is what a path ends with from its last point on. -/
theorem extension_append (stem : Text) {letters : Text} (h : ∀ b ∈ letters, b ≠ 0x2E ∧ b ≠ 0x2F) :
    extension (stem ++ 0x2E :: letters) = 0x2E :: letters := by
  have hpart : ∀ b ∈ letters.reverse, (b != 0x2F) = true := by
    intro b hb
    exact bne_iff_ne.2 (h b (List.mem_reverse.1 hb)).2
  have hletters : ∀ b ∈ letters.reverse, (b != 0x2E) = true := by
    intro b hb
    exact bne_iff_ne.2 (h b (List.mem_reverse.1 hb)).1
  have hreversed : (stem ++ 0x2E :: letters).reverse.takeWhile (· != 0x2F) =
      letters.reverse ++ 0x2E :: stem.reverse.takeWhile (· != 0x2F) := by
    rw [List.reverse_append, List.reverse_cons, List.append_assoc,
      List.takeWhile_append_of_pos hpart]
    rfl
  rw [extension_eq, hreversed, if_pos (by simp), List.takeWhile_append_of_pos hletters]
  simp

theorem extension_suffix (path : Text) : extension path <:+ path := by
  rw [extension_eq]
  split_ifs with hpoint
  · refine List.reverse_prefix.1 ?_
    rw [List.reverse_reverse]
    refine List.IsPrefix.trans ?_ (List.takeWhile_prefix (· != 0x2F))
    generalize path.reverse.takeWhile (· != 0x2F) = part at hpoint ⊢
    obtain ⟨front, rest, rfl, hfront⟩ :=
      List.eq_append_cons_of_mem (List.contains_iff_mem.1 hpoint)
    have hbytes : ∀ b ∈ front, (b != 0x2E) = true :=
      fun b hb => bne_iff_ne.2 (hb.ne_of_notMem hfront)
    rw [List.takeWhile_append_of_pos hbytes]
    exact ⟨rest, by simp⟩
  · exact List.nil_suffix

/-- The end of a path is the end of its last name. -/
theorem ends_append_iff {format : Format} {front name : Text}
    (hfront : ∀ b ∈ front.getLast?, b = Path.separator) (hname : Path.separator ∉ name) :
    format.Ends (front ++ name) ↔ format.Ends name := by
  constructor
  · rintro ⟨stem, ending, heq, hending⟩
    obtain ⟨letters, rfl, hletters⟩ := exists_of_lowerLetters hending
    rcases List.append_eq_append_iff.1 heq with ⟨rest, rfl, rfl⟩ | ⟨rest, rfl, hrest⟩
    · exact ⟨rest, _, rfl, hending⟩
    · rcases List.eq_nil_or_concat rest with rfl | ⟨before, b, rfl⟩
      · exact ⟨[], _, hrest.symm, hending⟩
      · -- the extension would reach over the separator in front of the name
        have hb : b = Path.separator := hfront b (by simp)
        have hmem : Path.separator ∈ 0x2E :: letters := by
          rw [hrest, hb]
          simp
        rcases List.mem_cons.1 hmem with hpoint | hmem
        · cases hpoint
        · exact absurd rfl (hletters _ hmem).2
  · rintro ⟨stem, ending, rfl, hending⟩
    exact ⟨front ++ stem, ending, (List.append_assoc ..).symm, hending⟩

end Format

/-- **The format of a path** is the one whose extension it ends with. -/
theorem Entry.formatOf?_eq_some_iff {path : Text} {format : Format} :
    formatOf? path = some format ↔ format.Ends path := by
  rw [formatOf?, Format.ofExtension?_eq_some_iff]
  constructor
  · intro h
    obtain ⟨stem, hpath⟩ := Format.extension_suffix path
    exact ⟨stem, _, hpath.symm, h⟩
  · rintro ⟨stem, ending, rfl, h⟩
    obtain ⟨letters, rfl, hletters⟩ := Format.exists_of_lowerLetters h
    rwa [Format.extension_append stem hletters]

end Phrasebook
