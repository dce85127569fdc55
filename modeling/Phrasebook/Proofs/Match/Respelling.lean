import Mathlib.Data.List.Forall2
import Phrasebook.Proofs.Match.Leaves
import Phrasebook.Proofs.Match.Refactoring
import Phrasebook.Proofs.Text.Blank

/-!
# How literal text is spelled

The author of a pattern may write a line break or several blanks where another writes one blank and,
unless letter case matters, a capital where another writes a small letter.  Here it is shown that
this makes no difference: two trees that differ in such spellings alone match alike.

* `Text.Respelled`, `Pattern.Respelled` : texts, and trees, that differ in spelling alone.
* `Piece.forall₂_ofText` : such texts have the same gaps, and characters that match the same.
* `Continuation.waysAlike_ofPattern` : such trees begin in ways that are met at the same places.
* `Matcher.run_respelled` : a tree and its respelling run alike, also where what follows them is
  respelled.
* `Matcher.matchAt_respelled` : the same at any offset.

Literal text is read in three places: where it is matched, where a slot looks for it without the
white space it begins with, and where a slot looks past text that is all blank.  All three see the
pieces of the text and nothing else.
-/

namespace Phrasebook

/-! ### Letters of ASCII -/

namespace Unicode

theorem charToLower_eq (c : Char) :
    c.toLower = if 0x41 ≤ c.toNat ∧ c.toNat ≤ 0x5A then Char.ofNat (c.toNat + 32) else c := by
  have hrange : (c.val ≥ 'A'.val ∧ c.val ≤ 'Z'.val) ↔ 0x41 ≤ c.toNat ∧ c.toNat ≤ 0x5A := by
    rw [ge_iff_le, UInt32.le_iff_toNat_le, UInt32.le_iff_toNat_le]
    rfl
  unfold Char.toLower
  split_ifs with h h' h'
  · have hmod : (c.val.toNat + ('a'.val - 'A'.val).toNat) % 2 ^ 32 = c.toNat + 32 := by
      change (c.toNat + 32) % 2 ^ 32 = c.toNat + 32
      omega
    rw [← Char.ofNat_toNat (Char.mk _ _), Char.toNat_mk, UInt32.toNat_add, hmod]
  · exact absurd (hrange.1 h) h'
  · exact absurd (hrange.2 h') h
  · rfl

/-- The small letter of a capital has the same lower-case form. -/
theorem toLower_charToLower (c : Char) : toLower c.toLower = toLower c := by
  rw [charToLower_eq]
  split_ifs with h
  · have hnat := Text.toNat_charOfNat (n := c.toNat + 32) (.inl (by omega))
    rw [toLower, hnat, if_pos (by omega), if_neg (by omega), toLower, if_pos (by omega), if_pos h]
  · rfl

theorem toUpper_charToLower (c : Char) : toUpper c.toLower = toUpper c := by
  rw [charToLower_eq]
  split_ifs with h
  · have hnat := Text.toNat_charOfNat (n := c.toNat + 32) (.inl (by omega))
    rw [toUpper, hnat, if_pos (by omega), if_pos (by omega), Nat.add_sub_cancel,
      Char.ofNat_toNat, toUpper, if_pos (by omega), if_neg (by omega)]
  · rfl

end Unicode

/-! ### Spellings -/

namespace Text

/-- Two characters are one letter: the same character or, unless case matters, a letter of ASCII in
either case. -/
def SameLetter (caseSensitive : Bool) (c d : Char) : Prop :=
  c = d ∨ (caseSensitive = false ∧ c.toLower = d.toLower)

/-- Two lists of characters differ in spelling alone: white space stands for other white space, and
a letter for the same letter.  Runs of white space that lie side by side are one run, so it does not
matter whether they are taken whole. -/
inductive CharsRespelled (caseSensitive : Bool) : List Char → List Char → Prop where
  /-- Nothing is left. -/
  | nil : CharsRespelled caseSensitive [] []
  /-- A run of white space stands for another. -/
  | gap {run run' rest rest' : List Char} (hne : run ≠ []) (hne' : run' ≠ [])
      (hblank : ∀ c ∈ run, Unicode.isBlank c) (hblank' : ∀ c ∈ run', Unicode.isBlank c)
      (h : CharsRespelled caseSensitive rest rest') :
      CharsRespelled caseSensitive (run ++ rest) (run' ++ rest')
  /-- A character stands for one that is the same letter. -/
  | letter {c d : Char} {rest rest' : List Char} (hsame : SameLetter caseSensitive c d)
      (h : CharsRespelled caseSensitive rest rest') :
      CharsRespelled caseSensitive (c :: rest) (d :: rest')

/-- Two texts differ in spelling alone. -/
def Respelled (caseSensitive : Bool) (s t : Text) : Prop :=
  CharsRespelled caseSensitive s.chars t.chars

end Text

namespace Pattern

mutual

/-- Two trees of one shape differ in the spelling of literal text alone. -/
inductive Respelled (caseSensitive : Bool) : Pattern → Pattern → Prop where
  | text {s t : Text} (h : Text.Respelled caseSensitive s t) :
      Respelled caseSensitive (.text s) (.text t)
  | sequence {ps qs : List Pattern} (h : RespelledAll caseSensitive ps qs) :
      Respelled caseSensitive (.sequence ps) (.sequence qs)
  | optional {p q : Pattern} (h : Respelled caseSensitive p q) :
      Respelled caseSensitive (.optional p) (.optional q)
  | choice {as bs : List (Mark × Pattern)} (h : RespelledBranches caseSensitive as bs) :
      Respelled caseSensitive (.choice as) (.choice bs)
  | regex (source : Text) (finder : Option Regex.Finder) :
      Respelled caseSensitive (.regex source finder) (.regex source finder)
  | slot (s : Slot) : Respelled caseSensitive (.slot s) (.slot s)
  | unknown (label : Text) : Respelled caseSensitive (.unknown label) (.unknown label)

/-- Two lists of trees that differ in spelling alone, one by one. -/
inductive RespelledAll (caseSensitive : Bool) : List Pattern → List Pattern → Prop where
  | nil : RespelledAll caseSensitive [] []
  | cons {p q : Pattern} {ps qs : List Pattern} (h : Respelled caseSensitive p q)
      (hs : RespelledAll caseSensitive ps qs) : RespelledAll caseSensitive (p :: ps) (q :: qs)

/-- Two lists of branches with the same marks that differ in spelling alone, one by one. -/
inductive RespelledBranches (caseSensitive : Bool) :
    List (Mark × Pattern) → List (Mark × Pattern) → Prop where
  | nil : RespelledBranches caseSensitive [] []
  | cons (mark : Mark) {p q : Pattern} {as bs : List (Mark × Pattern)}
      (h : Respelled caseSensitive p q) (hs : RespelledBranches caseSensitive as bs) :
      RespelledBranches caseSensitive ((mark, p) :: as) ((mark, q) :: bs)

end

end Pattern

/-! ### Pieces -/

namespace Piece

variable {caseSensitive : Bool}

theorem sameChar_false (c e : Char) :
    sameChar false c e = (Unicode.toLower c == Unicode.toLower e ||
      Unicode.toUpper c == Unicode.toUpper e) := by
  unfold sameChar
  by_cases h : c = e
  · subst h
    simp
  · simp [h]

/-- One letter matches the same characters in either spelling. -/
theorem sameChar_of_sameLetter {c d : Char} (h : Text.SameLetter caseSensitive c d) (e : Char) :
    sameChar caseSensitive c e = sameChar caseSensitive d e := by
  rcases h with rfl | ⟨rfl, hlower⟩
  · rfl
  · rw [sameChar_false, sameChar_false, ← Unicode.toLower_charToLower c,
      ← Unicode.toUpper_charToLower c, hlower, Unicode.toLower_charToLower,
      Unicode.toUpper_charToLower]

theorem isBlank_of_sameLetter {c d : Char} (h : Text.SameLetter caseSensitive c d) :
    Unicode.isBlank c = Unicode.isBlank d := by
  have hself : sameChar caseSensitive d d := by simp [sameChar]
  rw [← sameChar_of_sameLetter h d] at hself
  exact isBlank_of_sameChar hself

/-- Two pieces that match the same. -/
inductive Alike (caseSensitive : Bool) : Piece → Piece → Prop where
  | gap : Alike caseSensitive .gap .gap
  | char {c d : Char} (h : ∀ e, sameChar caseSensitive c e = sameChar caseSensitive d e) :
      Alike caseSensitive (.char c) (.char d)

theorem matchAt_alike {ps qs : List Piece} (h : List.Forall₂ (Alike caseSensitive) ps qs)
    (input : Text) (pos : Nat) :
    matchAt caseSensitive input ps pos = matchAt caseSensitive input qs pos := by
  induction h generalizing pos with
  | nil => rfl
  | cons hpiece _ ih =>
    cases hpiece with
    | gap => simp only [matchAt, ih]
    | char hsame => simp only [matchAt, hsame, ih]

theorem allBlank_alike {ps qs : List Piece} (h : List.Forall₂ (Alike caseSensitive) ps qs) :
    allBlank ps = allBlank qs := by
  induction h with
  | nil => rfl
  | cons hpiece _ ih =>
    cases hpiece with
    | gap => exact ih
    | char => rfl

theorem forall₂_dropGap {ps qs : List Piece} (h : List.Forall₂ (Alike caseSensitive) ps qs) :
    List.Forall₂ (Alike caseSensitive) (dropGap ps) (dropGap qs) := by
  cases h with
  | nil => exact .nil
  | cons hpiece hrest =>
    cases hpiece with
    | gap => exact hrest
    | char hsame => exact .cons (.char hsame) hrest

theorem ofChars_cons_of_isBlank {c : Char} (hc : Unicode.isBlank c) (rest : List Char) :
    ofChars (c :: rest) = .gap :: dropGap (ofChars rest) := by
  rw [ofChars, if_pos hc]
  cases ofChars rest with
  | nil => rfl
  | cons piece more => cases piece <;> rfl

/-- A run of white space is one gap, together with the white space after it. -/
theorem ofChars_run_append {run : List Char} (hne : run ≠ [])
    (hblank : ∀ c ∈ run, Unicode.isBlank c) (rest : List Char) :
    ofChars (run ++ rest) = .gap :: dropGap (ofChars rest) := by
  induction run with
  | nil => exact absurd rfl hne
  | cons c run ih =>
    rw [List.cons_append, ofChars_cons_of_isBlank (hblank c List.mem_cons_self)]
    cases run with
    | nil => rfl
    | cons d run =>
      rw [ih (by simp) fun e he => hblank e (List.mem_cons_of_mem _ he)]
      rfl

theorem forall₂_ofChars {cs ds : List Char} (h : Text.CharsRespelled caseSensitive cs ds) :
    List.Forall₂ (Alike caseSensitive) (ofChars cs) (ofChars ds) := by
  induction h with
  | nil => exact .nil
  | gap hne hne' hblank hblank' _ ih =>
    rw [ofChars_run_append hne hblank, ofChars_run_append hne' hblank']
    exact .cons .gap (forall₂_dropGap ih)
  | @letter c d rest rest' hsame _ ih =>
    have hiff := isBlank_of_sameLetter hsame
    cases hc : Unicode.isBlank c with
    | true =>
      rw [ofChars_cons_of_isBlank hc, ofChars_cons_of_isBlank (hiff ▸ hc)]
      exact .cons .gap (forall₂_dropGap ih)
    | false =>
      rw [ofChars, ofChars, if_neg (by simp [hc]), if_neg (by simp [← hiff, hc])]
      exact .cons (.char (sameChar_of_sameLetter hsame)) ih

/-- **Texts that differ in spelling alone** have the same gaps, and characters that match the
same. -/
theorem forall₂_ofText {s t : Text} (h : Text.Respelled caseSensitive s t) :
    List.Forall₂ (Alike caseSensitive) (ofText s) (ofText t) :=
  forall₂_ofChars h

end Piece

/-! ### The ways to begin -/

namespace Continuation

variable {caseSensitive : Bool}

/-- Two ways that are met at the same places. -/
structure Alike (caseSensitive : Bool) (a b : Continuation) : Prop where
  /-- They are met at the same places of every input. -/
  begins : ∀ input pos, beginsAt caseSensitive input pos a = beginsAt caseSensitive input pos b
  /-- Neither is an unknown node, or both are. -/
  unknown : anyUnknown [a] = anyUnknown [b]

/-- The ways of two nodes are alike one by one, and both nodes can be passed over or neither. -/
def WaysAlike (caseSensitive : Bool) (first second : List Continuation × Bool) : Prop :=
  List.Forall₂ (Alike caseSensitive) first.1 second.1 ∧ first.2 = second.2

theorem Alike.refl (a : Continuation) : Alike caseSensitive a a :=
  ⟨fun _ _ => rfl, rfl⟩

theorem WaysAlike.andThen {a b c d : List Continuation × Bool}
    (h : WaysAlike caseSensitive a b) (h' : WaysAlike caseSensitive c d) :
    WaysAlike caseSensitive (andThen a c) (andThen b d) := by
  obtain ⟨hways, hopen⟩ := h
  unfold Continuation.andThen
  rw [hopen]
  split_ifs
  · exact ⟨List.rel_append hways h'.1, h'.2⟩
  · exact ⟨hways, rfl⟩

theorem continues_alike {as bs : List Continuation}
    (h : List.Forall₂ (Alike caseSensitive) as bs) (input : Text) (pos : Nat) :
    continues caseSensitive input pos as = continues caseSensitive input pos bs := by
  induction h with
  | nil => rfl
  | cons hway _ ih =>
    unfold continues at ih ⊢
    rw [List.any_cons, List.any_cons, hway.begins, ih]

theorem anyUnknown_alike {as bs : List Continuation}
    (h : List.Forall₂ (Alike caseSensitive) as bs) : anyUnknown as = anyUnknown bs := by
  induction h with
  | nil => rfl
  | @cons a b as bs hway _ ih =>
    rw [← List.singleton_append, anyUnknown_append, hway.unknown, ih, ← anyUnknown_append,
      List.singleton_append]

theorem waysAlike_text {s t : Text} (h : Text.Respelled caseSensitive s t) :
    WaysAlike caseSensitive (ofPattern (.text s)) (ofPattern (.text t)) := by
  have hpieces := Piece.forall₂_ofText h
  simp only [ofPattern, Piece.allBlank_alike hpieces]
  split_ifs
  · exact ⟨.nil, rfl⟩
  · refine ⟨.cons ⟨fun input pos => ?_, rfl⟩ .nil, rfl⟩
    simp only [beginsAt, Piece.matchAt_alike (Piece.forall₂_dropGap hpieces)]

mutual

/-- **Trees that differ in spelling alone** begin in ways that are met at the same places. -/
theorem waysAlike_ofPattern {p q : Pattern} (h : Pattern.Respelled caseSensitive p q) :
    WaysAlike caseSensitive (ofPattern p) (ofPattern q) := by
  cases p with
  | text content =>
    cases h with
    | text h => exact waysAlike_text h
  | sequence children =>
    cases h with
    | sequence h => exact waysAlike_ofPatterns h
  | optional child =>
    cases h with
    | optional h => exact ⟨(waysAlike_ofPattern h).1, rfl⟩
  | choice alternatives =>
    cases h with
    | choice h => exact waysAlike_ofBranches h
  | regex source finder =>
    cases h with
    | regex => exact ⟨.cons (.refl _) .nil, rfl⟩
  | slot s =>
    cases h with
    | slot => exact ⟨.cons (.refl _) .nil, rfl⟩
  | unknown label =>
    cases h with
    | unknown => exact ⟨.cons (.refl _) .nil, rfl⟩

theorem waysAlike_ofPatterns {ps qs : List Pattern} (h : Pattern.RespelledAll caseSensitive ps qs) :
    WaysAlike caseSensitive (ofPatterns ps) (ofPatterns qs) := by
  match ps with
  | [] =>
    cases h with
    | nil => exact ⟨.nil, rfl⟩
  | p :: rest =>
    cases h with
    | cons hp hrest => exact (waysAlike_ofPattern hp).andThen (waysAlike_ofPatterns hrest)

theorem waysAlike_ofBranches {as bs : List (Mark × Pattern)}
    (h : Pattern.RespelledBranches caseSensitive as bs) :
    WaysAlike caseSensitive (ofBranches as) (ofBranches bs) := by
  match as with
  | [] =>
    cases h with
    | nil => exact ⟨.nil, rfl⟩
  | (mark, p) :: rest =>
    cases h with
    | cons _ hp hrest =>
      obtain ⟨hways, hopen⟩ := waysAlike_ofPattern hp
      obtain ⟨hways', hopen'⟩ := waysAlike_ofBranches hrest
      simp only [WaysAlike, ofBranches, hopen, hopen']
      exact ⟨List.rel_append hways hways', trivial⟩

end

theorem forall₂_ofFollow_cons {ps qs : List Pattern} {outer outer' : List (List Pattern)}
    (h : Pattern.RespelledAll caseSensitive ps qs)
    (houter : List.Forall₂ (Alike caseSensitive) (ofFollow outer) (ofFollow outer')) :
    List.Forall₂ (Alike caseSensitive) (ofFollow (ps :: outer)) (ofFollow (qs :: outer')) := by
  obtain ⟨hways, hopen⟩ := waysAlike_ofPatterns h
  simp only [ofFollow, hopen]
  split_ifs
  · exact List.rel_append hways houter
  · exact hways

theorem forall₂_ofFollow {follow follow' : List (List Pattern)}
    (h : List.Forall₂ (Pattern.RespelledAll caseSensitive) follow follow') :
    List.Forall₂ (Alike caseSensitive) (ofFollow follow) (ofFollow follow') := by
  induction h with
  | nil => exact .cons (.refl _) .nil
  | cons hframe _ ih => exact forall₂_ofFollow_cons hframe ih

end Continuation

/-! ### Matching -/

namespace Matcher

variable {V : Type} (m : Matcher V) (input : Text)

mutual

/-- **A tree and its respelling run alike**, where what follows the one begins as what follows the
other does. -/
theorem run_respelled {p q : Pattern} (h : Pattern.Respelled m.caseSensitive p q) (pos : Nat)
    {ctx : Context V} {follow : List (List Pattern)}
    (hfollow : List.Forall₂ (Continuation.Alike m.caseSensitive) (Continuation.ofFollow ctx.follow)
      (Continuation.ofFollow follow)) :
    m.run input q pos (ctx.withFollow follow) =
      ((m.run input p pos ctx).1, (m.run input p pos ctx).2.withFollow follow) := by
  unfold run
  split
  · rfl
  · cases p with
    | text content =>
      cases h with
      | text h => simp only [Piece.matchAt_alike (Piece.forall₂_ofText h)]
    | regex source finder =>
      cases h with
      | regex =>
        simp only
        split <;> rfl
    | slot slot =>
      cases h with
      | slot =>
        exact m.fillSlot_withFollow input slot pos (Continuation.anyUnknown_alike hfollow)
          (Continuation.continues_alike hfollow input)
    | unknown label =>
      cases h with
      | unknown => rfl
    | choice alternatives =>
      cases h with
      | choice h => exact runBranches_respelled h pos hfollow
    | sequence children =>
      cases h with
      | sequence h =>
        simp only
        rw [runAll_respelled h pos hfollow]
        obtain ⟨stop, after⟩ := m.runAll input children pos ctx
        cases stop <;> rfl
    | optional child =>
      cases h with
      | optional h =>
        simp only
        rw [run_respelled h pos hfollow]
        obtain ⟨stop, after⟩ := m.run input child pos ctx
        cases stop <;> rfl

theorem runAll_respelled {ps qs : List Pattern} (h : Pattern.RespelledAll m.caseSensitive ps qs)
    (pos : Nat) {ctx : Context V} {follow : List (List Pattern)}
    (hfollow : List.Forall₂ (Continuation.Alike m.caseSensitive) (Continuation.ofFollow ctx.follow)
      (Continuation.ofFollow follow)) :
    m.runAll input qs pos (ctx.withFollow follow) =
      ((m.runAll input ps pos ctx).1, (m.runAll input ps pos ctx).2.withFollow follow) := by
  match ps with
  | [] =>
    cases h with
    | nil => rfl
  | p :: rest =>
    cases h with
    | @cons _ q _ rest' hp hrest =>
      -- the siblings come in front of what follows, and they are respelled as well
      have hpush := Continuation.forall₂_ofFollow_cons hrest hfollow
      have hctx : (ctx.withFollow follow).push rest' =
          (ctx.push rest).withFollow (rest' :: follow) := rfl
      have hsame := m.run_follow input p pos (ctx.push rest)
      rw [runAll, runAll, hctx, run_respelled hp pos hpush]
      generalize m.run input p pos (ctx.push rest) = r at hsame ⊢
      obtain ⟨next, after⟩ := r
      replace hsame : after.follow = rest :: ctx.follow := hsame
      cases next with
      | none => rfl
      | some next =>
        have hpop : after.pop.follow = ctx.follow := by rw [Context.pop, hsame, List.tail_cons]
        exact runAll_respelled hrest next (hpop ▸ hfollow)

theorem runBranches_respelled {as bs : List (Mark × Pattern)}
    (h : Pattern.RespelledBranches m.caseSensitive as bs) (pos : Nat) {ctx : Context V}
    {follow : List (List Pattern)}
    (hfollow : List.Forall₂ (Continuation.Alike m.caseSensitive) (Continuation.ofFollow ctx.follow)
      (Continuation.ofFollow follow)) :
    m.runBranches input bs pos (ctx.withFollow follow) =
      ((m.runBranches input as pos ctx).1,
        (m.runBranches input as pos ctx).2.withFollow follow) := by
  match as with
  | [] =>
    cases h with
    | nil => rfl
  | (mark, p) :: rest =>
    cases h with
    | @cons _ _ q _ rest' hp hrest =>
      have hsame := m.run_follow input p pos ctx
      rw [runBranches, runBranches, run_respelled hp pos hfollow]
      generalize m.run input p pos ctx = r at hsame ⊢
      obtain ⟨stop, after⟩ := r
      replace hsame : after.follow = ctx.follow := hsame
      cases stop with
      | some stop => rfl
      | none =>
        have hback : (after.restore ctx).follow = ctx.follow := hsame
        exact runBranches_respelled hrest pos (hback ▸ hfollow)

end

/-- **The spelling of literal text makes no difference to matching.**  Let two trees of one shape
differ in white space and, unless case matters, in the case of letters of ASCII, and let what
follows them differ in the same way.  Whatever the input, the offset, the context and the resolver,
both end at the same place and leave the same context, with the same offers made on the way; what
follows is as it was before. -/
theorem matchAt_respelled (m : Matcher V) {p q : Pattern}
    (h : Pattern.Respelled m.caseSensitive p q) {ctx : Context V} {follow : List (List Pattern)}
    (hfollow : List.Forall₂ (Pattern.RespelledAll m.caseSensitive) ctx.follow follow)
    (input : Text) (offset : Int) :
    m.matchAt input q offset (ctx.withFollow follow) =
      ((m.matchAt input p offset ctx).1, (m.matchAt input p offset ctx).2.withFollow follow) := by
  unfold matchAt
  split_ifs
  · rfl
  · exact m.run_respelled input h offset.toNat (Continuation.forall₂_ofFollow hfollow)

/-- Two slots with literal text between them, a part of a longer pattern. -/
def joint (text : String) : Pattern :=
  .sequence [Pattern.blankSlot, .text (Text.ofString text), Pattern.blankSlot]

/-- A new attempt that this text follows. -/
def closing (text : String) : Context Text where
  follow := [[.text (Text.ofString text)]]

/-- A line break and a tab stand for a blank, and capitals for small letters, in the text between the
slots and in the text that ends the second. -/
theorem matchAt_respelled_joint :
    Pattern.Respelled false (joint " or ") (joint "\n\tOr ") ∧
    List.Forall₂ (Pattern.RespelledAll false) (closing " ok").follow (closing "  OK").follow ∧
    (takesAll.matchAt (Text.ofString "tea or milk ok") (joint " or ") 0 (closing " ok")).1 =
      some 11 ∧
    (takesAll.matchAt (Text.ofString "tea or milk ok") (joint "\n\tOr ") 0 (closing "  OK")).1 =
      some 11 := by
  have hor : (Text.ofString " or ").chars = [' '] ++ ['o', 'r', ' '] := by decide +kernel
  have hOr : (Text.ofString "\n\tOr ").chars = ['\n', '\t'] ++ ['O', 'r', ' '] := by
    decide +kernel
  have hok : (Text.ofString " ok").chars = [' '] ++ ['o', 'k'] := by decide +kernel
  have hOK : (Text.ofString "  OK").chars = [' ', ' '] ++ ['O', 'K'] := by decide +kernel
  have hjoint : Pattern.Respelled false (joint " or ") (joint "\n\tOr ") := by
    refine .sequence (.cons (.slot _) (.cons (.text ?_) (.cons (.slot _) .nil)))
    rw [Text.Respelled, hor, hOr]
    refine .gap (by simp) (by simp) (List.all_eq_true.1 rfl) (List.all_eq_true.1 rfl) ?_
    exact .letter (.inr ⟨rfl, by decide⟩) (.letter (.inl rfl) (.letter (.inl rfl) .nil))
  have hclosing : List.Forall₂ (Pattern.RespelledAll false) (closing " ok").follow
      (closing "  OK").follow := by
    refine .cons (.cons (.text ?_) .nil) .nil
    rw [Text.Respelled, hok, hOK]
    refine .gap (by simp) (by simp) (List.all_eq_true.1 rfl) (List.all_eq_true.1 rfl) ?_
    exact .letter (.inr ⟨rfl, by decide⟩) (.letter (.inr ⟨rfl, by decide⟩) .nil)
  have hmatch : (takesAll.matchAt (Text.ofString "tea or milk ok") (joint " or ") 0
      (closing " ok")).1 = some 11 := by decide +kernel
  have hsame := matchAt_respelled takesAll hjoint hclosing (Text.ofString "tea or milk ok") 0
  exact ⟨hjoint, hclosing, hmatch, (congrArg Prod.fst hsame).trans hmatch⟩

end Matcher

end Phrasebook
