import Mathlib.Tactic.TFAE
import Phrasebook.Proofs.Literal.Joining

/-!
# Lists and whole characters

The splitter looks at single bytes, and a byte counts as a blank when the character of that number is
one.  Two bytes that only continue longer characters count so, and a list may then be cut within a
character.

* `Literal.lt_of_isBlankByte` : what counts as a blank is an ASCII byte wherever a character begins.
* `Literal.sites` : the conjunctions that a text is cut at, with the text before and after them.
* `Literal.pieces_isValid_iff` : what the pieces of a well-formed text are like.
* `Literal.keepsCharacters_tfae` : **no character is cut in two** just when each conjunction that a
  text is cut at comes after an ASCII byte.
-/

namespace Phrasebook

namespace Literal

open Text

/-! ### Blanks of one byte -/

section Blank

variable {b : UInt8} {t : Text}

/-- A byte that counts as a blank is an ASCII byte, or one that only continues characters. -/
theorem isTail_of_isBlankByte (h : isBlankByte b) (hb : ¬ b.toNat < 0x80) : isTail b := by
  have hlt := b.toNat_lt
  obtain ⟨run, hrun, hfirst, hlast⟩ := Unicode.isBlank_iff.1 h
  rw [toNat_charOfNat (.inl (by omega))] at hfirst hlast
  have hruns : ∀ run ∈ Unicode.blankRuns, run.2 < 0x80 ∨ 0xFF < run.1 ∨ run.2 ≤ 0xBF := by decide
  have hbelow := hruns run hrun
  simp only [isTail, Bool.and_eq_true, decide_eq_true_eq]
  omega

/-- Where a character begins, only an ASCII byte counts as a blank. -/
theorem lt_of_isBlankByte (h : isBlankByte b) (hvalid : Text.isValid (b :: t)) :
    b.toNat < 0x80 := by
  by_contra hb
  have hhead := isTail_head_of_isValid hvalid b rfl
  rw [isTail_of_isBlankByte h hb] at hhead
  exact Bool.false_ne_true hhead.symm

theorem startsBlank_cons (h : isBlankByte b) (hb : b.toNat < 0x80) : startsBlank (b :: t) := by
  rw [startsBlank, front?_byte hb]
  exact h

theorem endsBlank_concat (h : isBlankByte b) (hb : b.toNat < 0x80) : endsBlank (t ++ [b]) := by
  have hlast := last?_append (s := t) (e := [b]) (front?_byte hb []) (ne_replacement_of_isBlank h)
  rw [endsBlank, hlast]
  exact h

end Blank

/-! ### Letters of conjunctions -/

theorem lt_of_lowerByte {b : UInt8} (h : (lowerByte b).toNat < 0x80) : b.toNat < 0x80 := by
  unfold lowerByte at h
  split_ifs at h with hupper
  · omega
  · exact h

theorem lt_of_mem_word {c : Conjunction} {b : UInt8} (h : b ∈ c.word) : b.toNat < 0x80 := by
  have hword : c.word.all (·.toNat < 0x80) := by cases c <;> decide
  exact of_decide_eq_true (List.all_eq_true.1 hword b h)

/-- After the letters of a conjunction a character begins. -/
theorem isValid_of_letters {c : Conjunction} {letters s t : Text}
    (hletters : letters.map lowerByte = c.word) (h : (s ++ (letters ++ t)).isValid) :
    t.isValid := by
  rcases List.eq_nil_or_concat letters with rfl | ⟨init, last, rfl⟩
  · cases c <;> cases hletters
  · have hmem : lowerByte last ∈ c.word := by
      rw [← hletters]
      exact List.mem_map_of_mem (by simp)
    have hlast := lt_of_lowerByte (lt_of_mem_word hmem)
    have hsplit : s ++ (init.concat last ++ t) = (s ++ init) ++ last :: t := by simp
    rw [hsplit] at h
    exact (isValid_of_split hlast h).2

/-! ### Where a list is cut -/

/-- A conjunction that a text is cut at. -/
structure Site where
  /-- The text in front of it, but for the byte right before it. -/
  before : Text
  /-- The byte right before it. -/
  blank : UInt8
  /-- Which of the words it is. -/
  word : Conjunction
  /-- Its letters. -/
  letters : Text
  /-- The text behind its letters. -/
  after : Text

/-- The conjunctions that a text is cut at, `before` being the text in front of it and `quoted`
whether that ends inside quotes. -/
def sites (quoted : Bool) (before : Text) : Text → List Site
  | [] => []
  | c :: rest =>
    if c = 0x22 then sites (!quoted) (before ++ [c]) rest
    else if quoted then sites quoted (before ++ [c]) rest
    else if c = 0x2C then sites false (before ++ [c]) rest
    else if isBlankByte c then
      match _h : conjunction? rest with
      | some (word, after) =>
        let length := word.word.length
        ⟨before, c, word, rest.take length, rest.drop length⟩ ::
          sites false (before ++ c :: rest.take (length + 1)) after
      | none => sites quoted (before ++ [c]) rest
    else sites quoted (before ++ [c]) rest
termination_by t => t.length
decreasing_by
  all_goals simp only [List.length_cons]
  all_goals first
    | omega
    | (have hl := conjunction?_length _h; omega)

section Bytes

variable {quoted : Bool} {before rest letters after : Text} {b d : UInt8} {c : Conjunction}

theorem sites_quote :
    sites quoted before (0x22 :: rest) = sites (!quoted) (before ++ [0x22]) rest := by
  rw [sites, if_pos rfl]

theorem sites_inside (hb : b ≠ 0x22) :
    sites true before (b :: rest) = sites true (before ++ [b]) rest := by
  rw [sites, if_neg hb, if_pos rfl]

theorem sites_comma : sites false before (0x2C :: rest) = sites false (before ++ [0x2C]) rest := by
  rw [sites, if_neg (by decide), if_neg Bool.false_ne_true, if_pos rfl]

theorem sites_conjunction (hb : isBlankByte b) (hletters : letters.map lowerByte = c.word)
    (hd : isBlankByte d) :
    sites false before (b :: (letters ++ d :: after)) =
      ⟨before, b, c, letters, d :: after⟩ ::
        sites false (before ++ b :: (letters ++ [d])) after := by
  obtain ⟨hquote, hcomma⟩ := ne_of_isBlankByte hb
  have hconjunction : conjunction? (letters ++ d :: after) = some (c, after) :=
    conjunction?_eq_some_iff.2 ⟨letters, d, hletters, hd, rfl⟩
  have hlength : c.word.length = letters.length := by rw [← hletters, List.length_map]
  rw [sites, if_neg hquote, if_neg Bool.false_ne_true, if_neg hcomma, if_pos hb]
  split
  · rename_i word after' h
    obtain ⟨rfl, rfl⟩ := Prod.mk.inj (Option.some.inj (hconjunction.symm.trans h))
    simp [hlength, List.take_append, List.take_of_length_le]
  · simp_all

theorem sites_plain (hquote : b ≠ 0x22) (hcomma : b ≠ 0x2C)
    (h : isBlankByte b → conjunction? rest = none) :
    sites false before (b :: rest) = sites false (before ++ [b]) rest := by
  rw [sites, if_neg hquote, if_neg Bool.false_ne_true, if_neg hcomma]
  split_ifs with hb
  · split
    · simp_all
    · rfl
  · rfl

end Bytes

/-- Induction along the splitter: over the quotes, the bytes inside them, and outside them the
commas, the conjunctions and the other bytes. -/
theorem scan_induction {motive : Bool → Text → Prop} (nil : ∀ quoted, motive quoted [])
    (quote : ∀ quoted rest, motive (!quoted) rest → motive quoted (0x22 :: rest))
    (inside : ∀ b rest, b ≠ 0x22 → motive true rest → motive true (b :: rest))
    (comma : ∀ rest, motive false rest → motive false (0x2C :: rest))
    (conjunction : ∀ b (c : Conjunction) letters d after, isBlankByte b → letters.map lowerByte = c.word →
      isBlankByte d → motive false after → motive false (b :: (letters ++ d :: after)))
    (plain : ∀ b rest, b ≠ 0x22 → b ≠ 0x2C → (isBlankByte b → conjunction? rest = none) →
      motive false rest → motive false (b :: rest)) (quoted : Bool) (t : Text) :
    motive quoted t := by
  refine sites.induct (fun quoted _ t => motive quoted t) (fun quoted _ => nil quoted)
    (fun quoted _ => quote quoted) (fun _ => inside) ?_ ?_ ?_ ?_ quoted [] t
  · intro quoted _ rest hquoted _ ih
    rw [eq_false_of_ne_true hquoted]
    exact comma rest ih
  · intro quoted _ b rest _ hquoted _ hb c after hafter _ ih
    obtain ⟨letters, d, hletters, hd, rfl⟩ := conjunction?_eq_some_iff.1 hafter
    rw [eq_false_of_ne_true hquoted]
    exact conjunction b c letters d after hb hletters hd ih
  · intro quoted _ b rest hquote hquoted hcomma _ hnone ih
    rw [eq_false_of_ne_true hquoted] at ih ⊢
    exact plain b rest hquote hcomma (fun _ => hnone) ih
  · intro quoted _ b rest hquote hquoted hcomma hb ih
    rw [eq_false_of_ne_true hquoted] at ih ⊢
    exact plain b rest hquote hcomma (fun h => absurd h hb) ih

/-- What stands at a place that is listed. -/
structure Site.IsIn (site : Site) (t : Text) : Prop where
  /-- The text is what stands before it, it, and what stands after it. -/
  split : t = site.before ++ site.blank :: (site.letters ++ site.after)
  /-- The byte before it counts as a blank. -/
  blank : isBlankByte site.blank
  /-- Its letters are those of its word, in any case. -/
  letters : site.letters.map lowerByte = site.word.word
  /-- The byte after it counts as a blank. -/
  after : ∃ d rest, site.after = d :: rest ∧ isBlankByte d

theorem isIn_of_mem_sites {quoted : Bool} {before t : Text} {site : Site}
    (h : site ∈ sites quoted before t) : site.IsIn (before ++ t) := by
  induction quoted, t using scan_induction generalizing before with
  | nil quoted => simp [sites] at h
  | quote quoted rest ih =>
    rw [sites_quote] at h
    have hrest := ih h
    rwa [List.append_assoc] at hrest
  | inside b rest hb ih =>
    rw [sites_inside hb] at h
    have hrest := ih h
    rwa [List.append_assoc] at hrest
  | comma rest ih =>
    rw [sites_comma] at h
    have hrest := ih h
    rwa [List.append_assoc] at hrest
  | conjunction b c letters d after hb hletters hd ih =>
    rw [sites_conjunction hb hletters hd] at h
    rcases List.mem_cons.1 h with rfl | h
    · exact ⟨rfl, hb, hletters, d, after, rfl, hd⟩
    · have hrest := ih h
      rwa [List.append_assoc, List.cons_append, List.append_assoc] at hrest
  | plain b rest hquote hcomma hnone ih =>
    rw [sites_plain hquote hcomma hnone] at h
    have hrest := ih h
    rwa [List.append_assoc] at hrest

/-! ### Cutting between characters -/

/-- **The pieces of a well-formed text** are well formed just when each conjunction that it is cut at
comes after an ASCII byte. -/
theorem pieces_isValid_iff {quoted : Bool} {current t : Text} {parts : Pieces}
    (h : cut quoted current t = some parts) (hvalid : (current ++ t).isValid) (before : Text) :
    (∀ piece ∈ parts.pieces, piece.isValid) ↔
      ∀ site ∈ sites quoted before t, site.blank.toNat < 0x80 := by
  induction quoted, t using scan_induction generalizing current before parts with
  | nil quoted =>
    rw [cut] at h
    split_ifs at h
    obtain rfl := Option.some.inj h
    rw [List.append_nil] at hvalid
    simp [sites, hvalid]
  | quote quoted rest ih =>
    rw [sites_quote]
    refine ih (cut_quote.symm.trans h) ?_ _
    rwa [List.append_assoc]
  | inside b rest hb ih =>
    rw [sites_inside hb]
    refine ih ((cut_inside hb).symm.trans h) ?_ _
    rwa [List.append_assoc]
  | comma rest ih =>
    rw [cut_comma] at h
    obtain ⟨more, hmore, rfl⟩ := Option.map_eq_some_iff.1 h
    obtain ⟨hcurrent, hrest⟩ := isValid_of_split (by decide) hvalid
    rw [sites_comma, ← ih hmore hrest, Pieces.push, List.forall_mem_cons, and_iff_right hcurrent]
  | conjunction b c letters d after hb hletters hd ih =>
    rw [cut_conjunction hb (conjunction?_eq_some_iff.2 ⟨letters, d, hletters, hd, rfl⟩)] at h
    obtain ⟨more, hmore, rfl⟩ := Option.map_eq_some_iff.1 h
    rw [sites_conjunction hb hletters hd, Pieces.pushJoined, List.forall_mem_cons,
      List.forall_mem_cons]
    by_cases hascii : b.toNat < 0x80
    · obtain ⟨hcurrent, hrest⟩ := isValid_of_split hascii hvalid
      have hblank := isValid_of_letters (s := []) hletters hrest
      obtain ⟨-, hafter⟩ := isValid_of_split (s := []) (lt_of_isBlankByte hd hblank) hblank
      rw [ih hmore hafter, and_iff_right hcurrent, and_iff_right hascii]
    · -- the byte continues a character that begins in the piece before it
      have hcurrent : ¬ current.isValid := fun hcurrent =>
        hascii (lt_of_isBlankByte hb (isValid_of_append hcurrent hvalid))
      exact iff_of_false (fun hpieces => hcurrent hpieces.1) fun hsites => hascii hsites.1
  | plain b rest hquote hcomma hnone ih =>
    rw [sites_plain hquote hcomma hnone]
    refine ih ((cut_plain hquote hcomma hnone).symm.trans h) ?_ _
    rwa [List.append_assoc]

/-- The items of a list are its pieces, trimmed. -/
theorem cut_of_splitItems {t : Text} {parts : Items} (h : splitItems t = some parts) :
    ∃ pieces, cut false [] t = some pieces ∧ parts.items = pieces.pieces.map Text.trim := by
  unfold splitItems at h
  cases hcut : cut false [] t with
  | none => simp [hcut] at h
  | some pieces =>
    simp only [hcut] at h
    split_ifs at h
    obtain rfl := Option.some.inj h
    exact ⟨pieces, rfl, rfl⟩

/-- No character of a text is cut in two. -/
structure KeepsCharacters (t : Text) (parts : Items) : Prop where
  /-- Each item is well formed. -/
  items : ∀ item ∈ parts.items, item.isValid
  /-- White space stands before each conjunction. -/
  before : ∀ site ∈ sites false [] t, (site.before ++ [site.blank]).endsBlank
  /-- White space stands after each conjunction. -/
  after : ∀ site ∈ sites false [] t, site.after.startsBlank

/-- White space stands after each conjunction that a well-formed text is cut at. -/
theorem after_startsBlank {t : Text} {site : Site} (hvalid : t.isValid)
    (h : site ∈ sites false [] t) : site.after.startsBlank := by
  obtain ⟨hsplit, -, hletters, d, rest, hafter, hd⟩ := isIn_of_mem_sites h
  have hshape : t = (site.before ++ [site.blank]) ++ (site.letters ++ site.after) := by
    rw [List.append_assoc]
    exact hsplit
  rw [hshape] at hvalid
  have hbehind := isValid_of_letters hletters hvalid
  rw [hafter] at hbehind ⊢
  exact startsBlank_cons hd (lt_of_isBlankByte hd hbehind)

/-- **No character is cut in two** just when each conjunction that a list is cut at comes after an
ASCII byte, and then white space stands on both sides of each. -/
theorem keepsCharacters_tfae {t : Text} {parts : Items} (hvalid : t.isValid)
    (h : splitItems t = some parts) :
    [KeepsCharacters t parts, ∀ item ∈ parts.items, item.isValid,
      ∀ site ∈ sites false [] t, site.blank.toNat < 0x80].TFAE := by
  obtain ⟨pieces, hcut, hitems⟩ := cut_of_splitItems h
  have hpieces := pieces_isValid_iff hcut hvalid []
  tfae_have 1 → 2 := KeepsCharacters.items
  tfae_have 2 ↔ 3 := by
    rw [← hpieces, hitems, List.forall_mem_map]
    simp only [isValid_trim]
  tfae_have 3 → 1 := by
    intro hascii
    refine ⟨tfae_2_iff_3.2 hascii, fun site hsite => ?_, fun site hsite => ?_⟩
    · exact endsBlank_concat (isIn_of_mem_sites hsite).blank (hascii site hsite)
    · exact after_startsBlank hvalid hsite
  tfae_finish

/-- A letter of two bytes, the second of which counts as a blank, before a conjunction. -/
def graveWord : Text := Text.ofString "àand y"

theorem not_keepsCharacters_graveWord :
    graveWord.isValid ∧ splitItems graveWord = some ⟨[[0xC3], [0x79]], true⟩ ∧
      ¬ KeepsCharacters graveWord ⟨[[0xC3], [0x79]], true⟩ ∧
      ¬ ∀ site ∈ sites false [] graveWord, site.blank.toNat < 0x80 := by
  have hvalid : graveWord.isValid := by decide +kernel
  have hsplit : splitItems graveWord = some ⟨[[0xC3], [0x79]], true⟩ := by decide +kernel
  have htfae := keepsCharacters_tfae hvalid hsplit
  have hbroken : ¬ ∀ item ∈ [[0xC3], [0x79]], Text.isValid item := by decide +kernel
  exact ⟨hvalid, hsplit, mt (htfae.out 0 1).1 hbroken, mt (htfae.out 1 2).2 hbroken⟩

end Literal

end Phrasebook
