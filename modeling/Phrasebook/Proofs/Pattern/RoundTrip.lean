import Phrasebook.Proofs.Pattern.Normal

/-!
# Compiling what was rendered

The rendering of a tree writes the insides of its groups between brackets, and the compiler has to
find the ends of the groups again.  It does so when the tree is delimited, and a normal tree whose
regular expressions have balanced brackets is.

* `Pattern.isDelimited` : each group ends, and each choice is cut into branches, where it was
  written to be.
* `Pattern.recompiles_of_isDelimited` : a normal tree that is delimited compiles to itself again.
* `Pattern.recompiles_of_sourcesBalanced` : **rendering is a right inverse of compiling** on normal
  trees whose regular expressions are balanced.
-/

namespace Phrasebook

namespace Pattern

variable {dialect : Regex.Dialect} {registry : Registry}

/-- The rendering of a tree compiles, and to the same tree. -/
def Recompiles (dialect : Regex.Dialect) (registry : Registry) (t : Pattern) : Prop :=
  ∃ u, compile dialect registry t.render = .ok u ∧ equal? u t = some true

/-! ### Delimited trees -/

mutual

/-- Whether the rendering of a tree keeps its groups apart: in the inside of each group the brackets
of its own kind balance, and the bars outside all brackets in the inside of a choice are those
between its branches. -/
@[simp]
def isDelimited : Pattern → Bool
  | .sequence children => allDelimited children
  | .optional child => balances 0x5B 0x5D (guardMark child.render) && child.isDelimited
  | .choice alternatives =>
    balances 0x28 0x29 (Text.join [0x7C] (renderBranches alternatives)) &&
      branches 0 (Text.join [0x7C] (renderBranches alternatives)) == renderBranches alternatives &&
      branchesDelimited alternatives
  | .regex source _ => balances 0x3C 0x3E source
  | .text _ | .slot _ | .unknown _ => true

/-- Whether all trees of a list are delimited. -/
@[simp]
def allDelimited : List Pattern → Bool
  | [] => true
  | p :: ps => p.isDelimited && allDelimited ps

/-- Whether the trees of all branches are delimited. -/
@[simp]
def branchesDelimited : List (Mark × Pattern) → Bool
  | [] => true
  | (_, p) :: rest => p.isDelimited && branchesDelimited rest

end

/-! ### Reading a rendering back -/

/-- The rendering of a group is read as the tree `p`, whatever was read before and follows it. -/
def ReadsAs (dialect : Regex.Dialect) (registry : Registry) (source : Text) (p : Pattern) : Prop :=
  ∀ pending rest more, read? dialect registry [] rest = some more →
    read? dialect registry pending (source ++ rest) = some (textItem pending ++ p :: more)

theorem readsAs_optional {source : Text} {parts : List Pattern}
    (hb : balances 0x5B 0x5D (guardMark source))
    (h : read? dialect registry [] source = some parts) :
    ReadsAs dialect registry (([0x5B] : Text) ++ guardMark source ++ [0x5D])
      (.optional (ofItems parts)) := by
  intro pending rest more hmore
  have hinside : optionalInside (guardMark source) = (none, guardMark source) := by
    rw [optionalInside, splitMark_guardMark]
  rw [List.append_assoc, List.append_assoc]
  refine read?_optional.2 ⟨guardMark source, rest, parts, more,
    (enclosed_eq_some (by decide)).2 ⟨rfl, hb⟩, ?_, hmore, ?_⟩
  · rw [hinside, read?_guardMark, h]
  · rw [hinside]
    rfl

theorem readsAs_choice {pieces : List Text} {parts : List (Mark × Pattern)}
    (hb : balances 0x28 0x29 (Text.join [0x7C] pieces))
    (hj : branches 0 (Text.join [0x7C] pieces) = pieces)
    (h : readBranches? dialect registry pieces = some parts) :
    ReadsAs dialect registry (([0x28] : Text) ++ Text.join [0x7C] pieces ++ [0x29])
      (.choice parts) := by
  intro pending rest more hmore
  rw [List.append_assoc, List.append_assoc]
  exact read?_choice.2 ⟨_, rest, parts, more, (enclosed_eq_some (by decide)).2 ⟨rfl, hb⟩,
    by rw [hj, h], hmore, rfl⟩

theorem readsAs_regex {source : Text} {finder : Regex.Finder} (hb : balances 0x3C 0x3E source)
    (h : dialect.compile (Regex.anchored source) = .ok finder) :
    ReadsAs dialect registry (([0x3C] : Text) ++ source ++ [0x3E])
      (.regex source (some finder)) := by
  intro pending rest more hmore
  rw [List.append_assoc, List.append_assoc]
  exact read?_regex.2 ⟨source, rest, finder, more, (enclosed_eq_some (by decide)).2 ⟨rfl, hb⟩, h,
    hmore, rfl⟩

theorem readsAs_slot {s s' : Slot} (hn : s.isNormal registry)
    (h : readSlot? registry (slotBody s) = some s') :
    ReadsAs dialect registry (renderSlot s) (.slot s') := by
  intro pending rest more hmore
  rw [renderSlot_eq, List.cons_append, List.append_assoc]
  exact read?_slot.2 ⟨slotBody s, rest, s', more, rfl, notMem_slotBody hn (by decide), h, hmore,
    rfl⟩

/-- The rendering of a tree is read as items that make up the same tree. -/
def ReadsBack (dialect : Regex.Dialect) (registry : Registry) (p : Pattern) : Prop :=
  (p.isGroup → ∃ q, ReadsAs dialect registry p.render q ∧ Same q p) ∧
    ∃ parts, read? dialect registry [] p.render = some parts ∧ Same (ofItems parts) p

theorem ReadsAs.readsBack {p q : Pattern} (h : ReadsAs dialect registry p.render q)
    (hs : Same q p) : ReadsBack dialect registry p := by
  refine ⟨fun _ => ⟨q, h, hs⟩, [q], ?_, hs⟩
  have := h [] [] [] (read?_nil [])
  rwa [List.append_nil] at this

theorem exists_of_isOk {source : Text} {finder : Option Regex.Finder}
    (h : (Pattern.regex source finder).isNormal dialect registry) :
    ∃ f, dialect.compile (Regex.anchored source) = .ok f := by
  rw [isNormal] at h
  cases hc : dialect.compile (Regex.anchored source) with
  | ok f => exact ⟨f, rfl⟩
  | error reason => simp [hc, Except.isOk, Except.toBool] at h

theorem exists_of_isText {p : Pattern} (h : p.isText) : ∃ content, p = .text content := by
  cases p with
  | text content => exact ⟨content, rfl⟩
  | _ => simp [isText] at h

theorem isGroup_of_isItem {p : Pattern} (hn : p.isNormal dialect registry) (hi : p.isItem)
    (ht : p.isText = false) : p.isGroup := by
  cases p <;> simp_all [isNormal, isItem, isText, isGroup]

mutual

theorem readsBack {p : Pattern} (hn : p.isNormal dialect registry) (hd : p.isDelimited) :
    ReadsBack dialect registry p := by
  match p with
  | .text content =>
    refine ⟨by simp [isGroup], textItem content, ?_, ?_⟩
    · rw [render, escape_eq hn, ← List.append_nil (escapeBytes content), read?_escapeBytes,
        read?_nil]
      rfl
    · rw [ofItems_textItem]
      exact same_text.2 rfl
  | .sequence children =>
    simp only [isNormal, Bool.and_eq_true, decide_eq_true_eq] at hn
    obtain ⟨⟨hlen, hs⟩, hn⟩ := hn
    obtain ⟨parts, hparts, hsame⟩ := readsBack_all hs hn hd [] (.inl rfl)
    refine ⟨by simp [isGroup], parts, hparts, ?_⟩
    rw [← ofItems_of_two_le hlen]
    exact same_ofItems_of_forall₂ hsame
  | .optional child =>
    rw [isNormal] at hn
    simp only [isDelimited, Bool.and_eq_true] at hd
    obtain ⟨-, parts, hparts, hsame⟩ := readsBack hn hd.2
    exact (readsAs_optional hd.1 hparts).readsBack (same_optional.2 hsame)
  | .choice alternatives =>
    simp only [isDelimited, Bool.and_eq_true, beq_iff_eq] at hd
    simp only [isNormal, Bool.and_eq_true] at hn
    obtain ⟨parts, hparts, hsame⟩ := readsBack_branches hn.2 hd.2
    exact (readsAs_choice hd.1.1 hd.1.2 hparts).readsBack (same_choice.2 hsame)
  | .regex source finder =>
    obtain ⟨f, hf⟩ := exists_of_isOk hn
    exact (readsAs_regex hd hf).readsBack (same_regex.2 ⟨_, rfl⟩)
  | .slot s =>
    obtain ⟨s', hs', hsame⟩ := readSlot?_slotBody hn
    exact (readsAs_slot hn hs').readsBack (same_slot.2 ⟨s', rfl, hsame⟩)
  | .unknown label => simp [isNormal] at hn

theorem readsBack_all {ps : List Pattern} (hs : separated ps)
    (hn : allNormal dialect registry ps) (hd : allDelimited ps) (pending : Text)
    (hp : pending = [] ∨ ∀ p ∈ ps.head?, p.isText = false) :
    ∃ parts, read? dialect registry pending (renderAll ps) = some (textItem pending ++ parts) ∧
      List.Forall₂ Same parts ps := by
  match ps with
  | [] => exact ⟨[], by simp [renderAll, read?_nil], .nil⟩
  | p :: ps =>
    simp only [allNormal, Bool.and_eq_true] at hn
    simp only [allDelimited, Bool.and_eq_true] at hd
    have hitem := isItem_of_separated hs
    cases htext : p.isText with
    | true =>
      obtain ⟨content, rfl⟩ := exists_of_isText htext
      -- the text is pending in its turn, which the neighbours leave room for
      obtain rfl : pending = [] := by
        rcases hp with hp | hp
        · exact hp
        · exact absurd (hp _ rfl) (by simp [isText])
      obtain ⟨parts, hparts, hsame⟩ := readsBack_all (separated_tail hs) hn.2 hd.2 content
        (.inr (isText_head_of_separated hs htext))
      refine ⟨textItem content ++ parts, ?_, ?_⟩
      · rw [renderAll, render, escape_eq hn.1, read?_escapeBytes]
        exact hparts
      · rw [textItem_of_ne_nil (by simpa [isItem] using hitem)]
        exact .cons (same_text.2 rfl) hsame
    | false =>
      obtain ⟨q, hq, hsame⟩ := (readsBack hn.1 hd.1).1 (isGroup_of_isItem hn.1 hitem htext)
      obtain ⟨parts, hparts, hall⟩ := readsBack_all (separated_tail hs) hn.2 hd.2 [] (.inl rfl)
      exact ⟨q :: parts, hq pending (renderAll ps) parts hparts, .cons hsame hall⟩

theorem readsBack_branches {bs : List (Mark × Pattern)} (hn : branchesNormal dialect registry bs)
    (hd : branchesDelimited bs) :
    ∃ parts, readBranches? dialect registry (renderBranches bs) = some parts ∧
      List.Forall₂ SameBranch parts bs := by
  match bs with
  | [] => exact ⟨[], readBranches?_nil, .nil⟩
  | (mark, p) :: rest =>
    simp only [branchesNormal, Bool.and_eq_true, decide_eq_true_eq] at hn
    simp only [branchesDelimited, Bool.and_eq_true] at hd
    obtain ⟨-, parts, hparts, hsame⟩ := readsBack hn.1.2 hd.1
    obtain ⟨more, hmore, hall⟩ := readsBack_branches hn.2 hd.2
    refine ⟨(mark, ofItems parts) :: more, readBranches?_cons.2 ⟨parts, more, ?_, hmore, ?_⟩,
      .cons ⟨rfl, hsame⟩ hall⟩
    · rw [markOf_renderBranch hn.1.1]
      split_ifs
      · rw [read?_guardMark, hparts]
      · exact hparts
    · rw [markOf_renderBranch hn.1.1]

end

/-- **A normal tree that is delimited** compiles to itself again from its rendering. -/
theorem recompiles_of_isDelimited {t : Pattern} (hn : t.isNormal dialect registry)
    (hd : t.isDelimited) : Recompiles dialect registry t := by
  obtain ⟨-, parts, hparts, hsame⟩ := readsBack hn hd
  exact ⟨ofItems parts, compile_eq_ok.2 ⟨parts, hparts, rfl⟩, hsame⟩

/-! ### Balanced regular expressions -/

mutual

/-- Whether the brackets of each kind balance in all regular expressions of a tree. -/
@[simp]
def sourcesBalanced : Pattern → Bool
  | .sequence children => allSourcesBalanced children
  | .optional child => child.sourcesBalanced
  | .choice alternatives => branchSourcesBalanced alternatives
  | .regex source _ => isBalanced source
  | .text _ | .slot _ | .unknown _ => true

/-- Whether they do in all trees of a list. -/
@[simp]
def allSourcesBalanced : List Pattern → Bool
  | [] => true
  | p :: ps => p.sourcesBalanced && allSourcesBalanced ps

/-- Whether they do in all branches of a choice. -/
@[simp]
def branchSourcesBalanced : List (Mark × Pattern) → Bool
  | [] => true
  | (_, p) :: rest => p.sourcesBalanced && branchSourcesBalanced rest

end

/-- A text that can stand in a group: its brackets balance, and it has no bar outside of them. -/
def FitsGroup (t : Text) : Prop :=
  isBalanced t ∧ walk barStep 0 t = some 0

theorem fitsGroup_of_walk {t : Text} (h : ∀ step, Neutral step → walk step 0 t = some 0) :
    FitsGroup t :=
  ⟨isBalanced_iff.2 fun _ hp => h _ (neutral_bracketStep hp), h _ neutral_barStep⟩

theorem FitsGroup.append {s t : Text} (hs : FitsGroup s) (ht : FitsGroup t) : FitsGroup (s ++ t) :=
  ⟨isBalanced_append hs.1 ht.1, by rw [walk_append hs.2, ht.2]⟩

theorem fitsGroup_group {o c : UInt8} {t : Text} (h : (o, c) ∈ bracketPairs) (ht : isBalanced t) :
    FitsGroup (([o] : Text) ++ t ++ [c]) :=
  ⟨isBalanced_group h ht, walk_barStep_group h ht⟩

/-- What a text is changed to without a walk seeing it fits where the text does. -/
theorem FitsGroup.of_walk_eq {s t : Text} (ht : FitsGroup t)
    (h : ∀ step, Neutral step → walk step 0 s = walk step 0 t) : FitsGroup s := by
  refine ⟨isBalanced_iff.2 fun p hp => ?_, ?_⟩
  · rw [h _ (neutral_bracketStep hp), isBalanced_iff.1 ht.1 p hp]
  · rw [h _ neutral_barStep, ht.2]

theorem balances_of_isBalanced {o c : UInt8} {t : Text} (h : (o, c) ∈ bracketPairs)
    (ht : isBalanced t) : balances o c t :=
  List.all_eq_true.1 ht (o, c) h

mutual

/-- The rendering of a tree with balanced expressions fits into a group, and its groups end where
they should. -/
theorem fitsGroup_render {p : Pattern} (hn : p.isNormal dialect registry) (hb : p.sourcesBalanced) :
    FitsGroup p.render ∧ p.isDelimited := by
  match p with
  | .text content =>
    rw [isNormal] at hn
    rw [render, escape_eq hn]
    exact ⟨fitsGroup_of_walk fun step hs => walk_escapeBytes hs 0 content, rfl⟩
  | .sequence children =>
    simp only [isNormal, Bool.and_eq_true] at hn
    exact fitsGroup_renderAll hn.2 hb
  | .optional child =>
    rw [isNormal] at hn
    obtain ⟨hfits, hd⟩ := fitsGroup_render hn hb
    have hguard : FitsGroup (guardMark child.render) :=
      hfits.of_walk_eq fun step hs => walk_guardMark hs 0 child.render
    refine ⟨fitsGroup_group (by decide) hguard.1, ?_⟩
    rw [isDelimited, hd, balances_of_isBalanced (by decide) hguard.1]
    rfl
  | .choice alternatives =>
    simp only [isNormal, Bool.and_eq_true, Bool.not_eq_true', List.isEmpty_eq_false_iff] at hn
    obtain ⟨hfits, hd⟩ := fitsGroup_renderBranches hn.2 hb
    have hjoin := isBalanced_join fun p hp => (hfits p hp).1
    have hne : renderBranches alternatives ≠ [] := by
      cases alternatives with
      | nil => exact absurd rfl hn.1
      | cons b bs => simp [renderBranches]
    refine ⟨fitsGroup_group (by decide) hjoin, ?_⟩
    rw [isDelimited, hd, balances_of_isBalanced (by decide) hjoin,
      branches_join hne fun p hp => (hfits p hp).2]
    simp
  | .regex source finder =>
    exact ⟨fitsGroup_group (by decide) hb, balances_of_isBalanced (by decide) hb⟩
  | .slot s =>
    refine ⟨fitsGroup_of_walk fun step hs => walk_of_neutral hs fun b hmem hb => ?_, rfl⟩
    rw [render, renderSlot_eq] at hmem
    -- of the special bytes a slot has the percent sign only
    have hgroup : ∀ b ∈ groupBytes, b ∈ specialBytes ∧ b ≠ 0x25 :=
      List.all_iff_forall_prop.1 (by decide)
    obtain ⟨hspecial, hne⟩ := hgroup b hb
    have hbody := notMem_slotBody hn hspecial
    simp [hne, hbody] at hmem
  | .unknown label => simp [isNormal] at hn

theorem fitsGroup_renderAll {ps : List Pattern} (hn : allNormal dialect registry ps)
    (hb : allSourcesBalanced ps) : FitsGroup (renderAll ps) ∧ allDelimited ps := by
  match ps with
  | [] => exact ⟨fitsGroup_of_walk fun _ _ => rfl, rfl⟩
  | p :: ps =>
    simp only [allNormal, Bool.and_eq_true] at hn
    simp only [allSourcesBalanced, Bool.and_eq_true] at hb
    obtain ⟨hp, hpd⟩ := fitsGroup_render hn.1 hb.1
    obtain ⟨hps, hpsd⟩ := fitsGroup_renderAll hn.2 hb.2
    refine ⟨hp.append hps, ?_⟩
    rw [allDelimited, hpd, hpsd]
    rfl

theorem fitsGroup_renderBranches {bs : List (Mark × Pattern)}
    (hn : branchesNormal dialect registry bs) (hb : branchSourcesBalanced bs) :
    (∀ t ∈ renderBranches bs, FitsGroup t) ∧ branchesDelimited bs := by
  match bs with
  | [] => exact ⟨by simp [renderBranches], rfl⟩
  | (mark, p) :: rest =>
    simp only [branchesNormal, Bool.and_eq_true, decide_eq_true_eq] at hn
    simp only [branchSourcesBalanced, Bool.and_eq_true] at hb
    obtain ⟨hp, hpd⟩ := fitsGroup_render hn.1.2 hb.1
    obtain ⟨hrest, hrestd⟩ := fitsGroup_renderBranches hn.2 hb.2
    have hbranch : FitsGroup (renderBranch mark p.render) :=
      hp.of_walk_eq fun step hs => walk_renderBranch hs 0 hn.1.1 p.render
    refine ⟨List.forall_mem_cons.2 ⟨hbranch, hrest⟩, ?_⟩
    rw [branchesDelimited, hpd, hrestd]
    rfl

end

/-- **Rendering is a right inverse of compiling.**  A normal tree in whose regular expressions the
brackets of each kind balance has a rendering that compiles, and to the same tree. -/
theorem recompiles_of_sourcesBalanced {t : Pattern} (hn : t.isNormal dialect registry)
    (hb : t.sourcesBalanced) :
    ∃ u, compile dialect registry t.render = .ok u ∧ equal? u t = some true :=
  recompiles_of_isDelimited hn (fitsGroup_render hn hb).2

/-- The registry of the built-in types. -/
def builtinTypes : Registry :=
  (Registry.registerBuiltins Regex.backtracking Registry.empty).1

/-- A tree with a branch that has to be guarded, marks, nested groups, an expression with brackets
and a slot of which only one type has its spelling. -/
def greeting : Pattern :=
  .sequence [
    .text (Text.ofString "say [it] "),
    .optional (.choice [(1, .text (Text.ofString "twice|"))]),
    .choice [
      (0, .text (Text.ofString "2¦x")),
      (7, .sequence [
        .regex (Text.ofString "([ab]|\\))") none,
        .optional (.slot {
          types := ["numbers", "text"].filterMap fun name =>
            builtinTypes.typeRef? (Text.ofString name)
          nullable := true
          acceptance := .literals
          tense := .past
          spellings := [Text.ofString "numbers"] })])]]

theorem recompiles_of_sourcesBalanced_greeting :
    greeting.isNormal Regex.backtracking builtinTypes ∧ greeting.sourcesBalanced ∧
      ∃ u, compile Regex.backtracking builtinTypes greeting.render = .ok u ∧
        equal? u greeting = some true := by
  have hn : greeting.isNormal Regex.backtracking builtinTypes := by decide +kernel
  have hb : greeting.sourcesBalanced := by decide +kernel
  exact ⟨hn, hb, recompiles_of_sourcesBalanced hn hb⟩

end Pattern

end Phrasebook
