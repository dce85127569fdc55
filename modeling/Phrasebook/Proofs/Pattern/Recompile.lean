import Phrasebook.Proofs.Pattern.RoundTrip

/-!
# When a rendering compiles to its tree

A group of a rendering that does not end where it was written to end does so too early or too late:
what the compiler takes for its inside stops short of it, or goes on past the bracket or bar that
ends it.  No such piece reads as the tree that was rendered, so that a tree compiles to itself again
only if it is delimited.

* `Pattern.Follows` : the pieces that the compiler can take for a rendering.
* `Pattern.exact` : a piece that reads as the tree is the rendering, and the tree is delimited.
* `Pattern.recompiles_iff_isDelimited` : **the round trip holds exactly for the delimited trees**,
  among those that are compiled from well-formed patterns.
-/

namespace Phrasebook

namespace Pattern

variable {dialect : Regex.Dialect} {registry : Registry} {s r : Text}

/-! ### Pieces of a rendering -/

/-- The bytes that end a group or a branch. -/
def endingBytes : Text :=
  [0x5D, 0x29, 0x7C]

/-- What the compiler can take for the rendering `r`: a piece that stops short of its end, or one
that goes on past a byte that ends a group or a branch. -/
def Follows (s r : Text) : Prop :=
  s <+: r ∨ ∃ b ∈ endingBytes, ∃ w, s = r ++ b :: w

theorem follows_refl (r : Text) : Follows r r := .inl (List.prefix_refl r)

/-- A piece and the rendering are two beginnings of one text. -/
theorem Follows.exists_append (h : Follows s r) : ∃ u v, s ++ u = r ++ v := by
  obtain ⟨u, rfl⟩ | ⟨b, -, w, rfl⟩ := h
  · exact ⟨u, [], by simp⟩
  · exact ⟨[], b :: w, by simp⟩

theorem follows_cons {x y : UInt8} : Follows (x :: s) (y :: r) ↔ x = y ∧ Follows s r := by
  simp only [Follows, List.cons_prefix_cons, List.cons_append, List.cons.injEq]
  constructor
  · rintro (⟨rfl, h⟩ | ⟨b, hb, w, rfl, h⟩)
    · exact ⟨rfl, .inl h⟩
    · exact ⟨rfl, .inr ⟨b, hb, w, h⟩⟩
  · rintro ⟨rfl, h | ⟨b, hb, w, h⟩⟩
    · exact .inl ⟨rfl, h⟩
    · exact .inr ⟨b, hb, w, rfl, h⟩

theorem follows_append (a : Text) : Follows (a ++ s) (a ++ r) ↔ Follows s r := by
  induction a with
  | nil => rfl
  | cons x a ih => rw [List.cons_append, List.cons_append, follows_cons, ih, and_iff_right rfl]

/-- A piece of two texts stops in the first of them or goes on in the second. -/
theorem Follows.cases_append {a : Text} (h : Follows s (a ++ r)) :
    (s <+: a ∧ s ≠ a) ∨ ∃ s', s = a ++ s' ∧ Follows s' r := by
  obtain ⟨u, v, huv⟩ := h.exists_append
  rw [List.append_assoc] at huv
  rcases List.append_eq_append_iff.1 huv with ⟨a', rfl, -⟩ | ⟨s', rfl, -⟩
  · by_cases ha : a' = []
    · subst ha
      rw [List.append_nil] at h ⊢
      exact .inr ⟨[], by simp, by simpa using (follows_append s).1 (by simpa using h)⟩
    · exact .inl ⟨List.prefix_append _ _, by simpa using ha⟩
  · exact .inr ⟨s', rfl, (follows_append a).1 h⟩

/-- The piece before a byte that ends a group is one for the text before that byte. -/
theorem Follows.inside {c : UInt8} {inner after g : Text} (hc : c ∈ endingBytes)
    (h : Follows (inner ++ c :: after) (g ++ c :: r)) : Follows inner g := by
  obtain ⟨u, v, huv⟩ := h.exists_append
  rw [List.append_assoc, List.append_assoc] at huv
  rcases List.append_eq_append_iff.1 huv with ⟨a, rfl, -⟩ | ⟨a, rfl, ha⟩
  · exact .inl (List.prefix_append _ _)
  · cases a with
    | nil => simpa using follows_refl g
    | cons b w =>
      obtain ⟨rfl, -⟩ := List.cons.inj ha
      exact .inr ⟨_, hc, w, rfl⟩

theorem Follows.after {c : UInt8} {g after : Text} (h : Follows (g ++ c :: after) (g ++ c :: r)) :
    Follows after r :=
  (follows_cons.1 ((follows_append g).1 h)).2

/-! ### Marks -/

/-- A piece of a guarded branch does not read as one with a mark. -/
theorem splitMark_of_follows (h : Follows s (guardMark r)) : splitMark s = none := by
  cases hs : splitMark s with
  | none => rfl
  | some marked =>
    obtain ⟨mark, rest⟩ := marked
    obtain ⟨digits, rfl, hne, hall, hlt, hmark⟩ := splitMark_eq_some.1 hs
    -- the guarded branch itself cannot begin with a mark
    have hguard (t : Text) : guardMark r ≠ digits ++ markSeparator ++ t := by
      intro hg
      have := splitMark_eq_some.2 ⟨digits, hg, hne, hall, hlt, hmark⟩
      rw [splitMark_guardMark] at this
      simp at this
    obtain ⟨u, hu⟩ | ⟨b, hb, w, hw⟩ := h
    · rw [List.append_assoc] at hu
      exact absurd hu.symm (hguard _)
    · rcases List.append_eq_append_iff.1 hw with ⟨a, ha, -⟩ | ⟨a, ha, hbw⟩
      · exact absurd ha (hguard a)
      · cases a with
        | nil =>
          rw [List.append_nil] at ha
          exact absurd ha.symm (by simpa using hguard [])
        | cons c a =>
          -- the byte after it ends a group, so that it is neither a digit nor in the separator
          obtain ⟨rfl, -⟩ := List.cons.inj hbw
          have hmem : b ∈ digits ++ markSeparator := by
            rw [ha]
            simp
          have hnot : ∀ b ∈ endingBytes, isDigit b = false ∧ b ∉ markSeparator :=
            List.all_iff_forall_prop.1 (by decide)
          obtain ⟨hdigit, hsep⟩ := hnot b hb
          rcases List.mem_append.1 hmem with hmem | hmem
          · rw [List.all_eq_true.1 hall b hmem] at hdigit
            exact Bool.noConfusion hdigit
          · exact absurd hmem hsep

/-- Where only the rendering itself reads as a tree, only the guarded rendering does so among the
pieces of it. -/
theorem eq_guardMark_of_follows {parts : List Pattern} (h : Follows s (guardMark r))
    (hs : read? dialect registry [] s = some parts)
    (hr : ∀ t, Follows t r → read? dialect registry [] t = some parts → t = r) :
    s = guardMark r := by
  cases hm : splitMark r with
  | none =>
    rw [guardMark_of_none hm] at h ⊢
    exact hr s h hs
  | some marked =>
    obtain ⟨digits, hrd, hall, hg⟩ := guardMark_of_some hm
    have hplain : ∀ b ∈ digits, b ∉ specialBytes := fun b hb =>
      notMem_specialBytes_of_isDigit (List.all_eq_true.1 hall b hb)
    rw [hg] at h ⊢
    have hshort (ht : s <+: digits) : False := by
      have hpre : s <+: r := by
        rw [hrd, List.append_assoc]
        exact ht.trans (List.prefix_append _ _)
      have hlen := ht.length_le
      have heq := congrArg List.length ((hr s (.inl hpre) hs).trans hrd)
      simp only [List.length_append, markSeparator, List.length_cons] at heq
      omega
    rcases h.cases_append with ⟨ht, -⟩ | ⟨s', rfl, h'⟩
    · exact (hshort ht).elim
    · cases s' with
      | nil => exact (hshort (by simp)).elim
      | cons x s' =>
        obtain ⟨rfl, hsep⟩ := follows_cons.1 h'
        cases s' with
        | nil =>
          rw [read?_plainText hplain, read?_trailing] at hs
          simp at hs
        | cons y s' =>
          obtain ⟨rfl, htail⟩ := follows_cons.1 hsep
          -- an escaped byte that needs no escape reads like the byte
          have hread : read? dialect registry [] (digits ++ 0xC2 :: s') = some parts := by
            rw [← hs, read?_plainText hplain, read?_plainText hplain, read?_escape,
              read?_plain _ _ (by decide)]
          have hfollows : Follows (digits ++ 0xC2 :: s') r := by
            rw [hrd, List.append_assoc, follows_append]
            exact follows_cons.2 ⟨rfl, htail⟩
          have heq := (hr _ hfollows hread).trans hrd
          rw [List.append_assoc, List.append_cancel_left_eq] at heq
          rw [heq]

/-! ### Literal text -/

/-- A piece that reads as literal text has all of it. -/
theorem exists_of_follows_escapeBytes {pending content : Text} {parts : List Pattern}
    (hp : pending ++ content ≠ []) (h : Follows s (escapeBytes content ++ r))
    (hs : read? dialect registry pending s = some (.text (pending ++ content) :: parts)) :
    ∃ s', s = escapeBytes content ++ s' ∧ Follows s' r ∧
      read? dialect registry [] s' = some parts := by
  induction content generalizing pending s with
  | nil =>
    rw [List.append_nil] at hp hs
    obtain ⟨more, rest, heq, hrest⟩ := read?_split hp hs
    obtain ⟨htext, rfl⟩ := List.cons.inj heq
    refine ⟨s, rfl, h, hrest ?_⟩
    simpa using htext
  | cons b content ih =>
    have hassoc : pending ++ b :: content = pending ++ [b] ++ content := by simp
    rw [hassoc] at hp hs
    have hlong : s ≠ [] := by
      rintro rfl
      rw [read?_nil, Option.some.injEq] at hs
      by_cases hnil : pending = []
      · simp [hnil, textItem] at hs
      · rw [textItem_of_ne_nil hnil] at hs
        simp at hs
    rw [escapeBytes_cons] at h ⊢
    rw [List.append_assoc] at h
    split_ifs at h ⊢ with hb
    · cases s with
      | nil => exact absurd rfl hlong
      | cons x s =>
        obtain ⟨rfl, hx⟩ := follows_cons.1 h
        cases s with
        | nil => simp [read?_trailing] at hs
        | cons y s =>
          obtain ⟨rfl, hy⟩ := follows_cons.1 hx
          rw [read?_escape] at hs
          obtain ⟨s', rfl, hs'⟩ := ih hp hy hs
          exact ⟨s', rfl, hs'⟩
    · cases s with
      | nil => exact absurd rfl hlong
      | cons x s =>
        obtain ⟨rfl, hx⟩ := follows_cons.1 h
        rw [read?_plain _ _ (notMem_of_notMem_specialBytes hb)] at hs
        obtain ⟨s', rfl, hs'⟩ := ih hp hx hs
        exact ⟨s', rfl, hs'⟩

/-! ### Trees -/

/-- A piece of a rendering, `r` being what was written after it, that reads as a tree and the items
`parts` has the whole rendering of the tree, and the tree is delimited. -/
def Exact (dialect : Regex.Dialect) (registry : Registry) (p : Pattern) : Prop :=
  ∀ s r own parts, Follows s (p.render ++ r) →
    read? dialect registry [] s = some (own ++ parts) → List.Forall₂ Same own p.itemList →
    (∃ s', s = p.render ++ s' ∧ Follows s' r ∧ read? dialect registry [] s' = some parts) ∧
      p.isDelimited

theorem separated_itemList {p : Pattern} (h : p.isNormal dialect registry) :
    separated p.itemList ∧ ofItems p.itemList = p := by
  match p with
  | .text [] => exact ⟨rfl, rfl⟩
  | .text (b :: content) => exact ⟨rfl, rfl⟩
  | .sequence children =>
    simp only [isNormal, Bool.and_eq_true, decide_eq_true_eq] at h
    exact ⟨h.1.2, ofItems_of_two_le h.1.1⟩
  | .optional _ | .choice _ | .regex _ _ | .slot _ => exact ⟨rfl, rfl⟩
  | .unknown _ => simp [isNormal] at h

/-- A piece that reads as a tree and nothing else is its rendering. -/
theorem Exact.eq_render {p : Pattern} (h : Exact dialect registry p)
    (hn : p.isNormal dialect registry) {parts : List Pattern} (hs : Follows s p.render)
    (hread : read? dialect registry [] s = some parts) (hsame : Same (ofItems parts) p) :
    s = p.render ∧ p.isDelimited := by
  obtain ⟨hsep, hof⟩ := separated_itemList hn
  rw [← hof, same_ofItems (isItem_of_read? hread) (all_isItem_of_separated hsep)] at hsame
  obtain ⟨⟨s', rfl, -, hs'⟩, hd⟩ :=
    h s [] parts [] (by simpa using hs) (by simpa using hread) hsame
  rw [eq_nil_of_read?_nil hs', List.append_nil]
  exact ⟨rfl, hd⟩

theorem Exact.eq_guardMark {p : Pattern} (h : Exact dialect registry p)
    (hn : p.isNormal dialect registry) {parts : List Pattern} (hs : Follows s (guardMark p.render))
    (hread : read? dialect registry [] s = some parts) (hsame : Same (ofItems parts) p) :
    s = guardMark p.render ∧ p.isDelimited := by
  have heq := eq_guardMark_of_follows hs hread fun t ht hr => (h.eq_render hn ht hr hsame).1
  refine ⟨heq, (h.eq_render hn (follows_refl _) ?_ hsame).2⟩
  rw [← read?_guardMark, ← heq, hread]

/-- A piece of a branch that reads with its mark as its tree is the branch. -/
theorem Exact.eq_renderBranch {p : Pattern} (h : Exact dialect registry p)
    (hn : p.isNormal dialect registry) {mark : Mark} (hm : 0 ≤ mark.toInt) {parts : List Pattern}
    (hs : Follows s (renderBranch mark p.render)) (hmark : (markOf s).1 = mark)
    (hread : read? dialect registry [] (markOf s).2 = some parts) (hsame : Same (ofItems parts) p) :
    s = renderBranch mark p.render ∧ p.isDelimited := by
  unfold renderBranch at hs ⊢
  split_ifs at hs ⊢ with h0
  · have hnone : markOf s = (0, s) := by
      rw [markOf, splitMark_of_follows hs]
    rw [hnone] at hread
    exact h.eq_guardMark hn hs hread hsame
  · cases hsplit : splitMark s with
    | none =>
      rw [markOf, hsplit] at hmark
      exact absurd hmark.symm h0
    | some marked =>
      rw [markOf, hsplit] at hread
      obtain ⟨m, q⟩ := marked
      obtain ⟨digits, rfl, -, hall, -⟩ := splitMark_eq_some.1 hsplit
      obtain ⟨u, v, huv⟩ := hs.exists_append
      simp only [List.append_assoc] at huv
      obtain ⟨rfl, -, -⟩ := digits_unique hall (ofInt_mark hm).2.1 (by decide) (by decide) huv
      obtain ⟨rfl, hd⟩ := h.eq_render hn ((follows_append _).1 hs) hread hsame
      exact ⟨rfl, hd⟩

/-- The inside of a choice that reads as its branches is cut into them. -/
def ExactBranches (dialect : Regex.Dialect) (registry : Registry) (bs : List (Mark × Pattern)) :
    Prop :=
  ∀ pieces parts, Follows (Text.join [0x7C] pieces) (Text.join [0x7C] (renderBranches bs)) →
    readBranches? dialect registry pieces = some parts → List.Forall₂ SameBranch parts bs →
    pieces = renderBranches bs ∧ branchesDelimited bs

/-- The items of several trees, one after the other. -/
def ExactAll (dialect : Regex.Dialect) (registry : Registry) (ps : List Pattern) : Prop :=
  ∀ s r own parts, Follows s (renderAll ps ++ r) →
    read? dialect registry [] s = some (own ++ parts) → List.Forall₂ Same own ps →
    (∃ s', s = renderAll ps ++ s' ∧ Follows s' r ∧ read? dialect registry [] s' = some parts) ∧
      allDelimited ps

theorem exact_text {content : Text} (hv : content.isValid) :
    Exact dialect registry (.text content) := by
  intro s r own parts hs hread hsame
  rw [render, escape_eq hv] at hs ⊢
  refine ⟨?_, rfl⟩
  cases content with
  | nil =>
    obtain rfl := List.forall₂_nil_right_iff.1 hsame
    exact ⟨s, rfl, hs, hread⟩
  | cons b content =>
    obtain ⟨q, own', hq, hnil, rfl⟩ := List.forall₂_cons_right_iff.1 hsame
    obtain rfl := List.forall₂_nil_right_iff.1 hnil
    rw [same_text.1 hq] at hread
    exact exists_of_follows_escapeBytes (by simp) hs hread

/-- The items of a tree that is a group are one tree. -/
theorem exists_of_forall₂_singleton {own : List Pattern} {p : Pattern}
    (h : List.Forall₂ Same own [p]) : ∃ q, own = [q] ∧ Same q p := by
  obtain ⟨q, own', hq, hnil, rfl⟩ := List.forall₂_cons_right_iff.1 h
  obtain rfl := List.forall₂_nil_right_iff.1 hnil
  exact ⟨q, rfl, hq⟩

theorem ne_nil_of_read?_cons {p : Pattern} {parts : List Pattern}
    (h : read? dialect registry [] s = some (p :: parts)) : s ≠ [] := by
  rintro rfl
  simp [read?_nil, textItem] at h

theorem exact_optional {child : Pattern} (h : Exact dialect registry child)
    (hn : child.isNormal dialect registry) : Exact dialect registry (.optional child) := by
  intro s r own parts hs hread hsame
  obtain ⟨q, rfl, hq⟩ := exists_of_forall₂_singleton hsame
  rw [render, List.append_assoc, List.append_assoc] at hs
  cases s with
  | nil => exact absurd rfl (ne_nil_of_read?_cons hread)
  | cons x s =>
    obtain ⟨rfl, hs1⟩ := follows_cons.1 hs
    obtain ⟨inner, after, inside, more, he, hi, hm, hparts⟩ := read?_optional.1 hread
    obtain ⟨rfl, hb⟩ := (enclosed_eq_some (by decide)).1 he
    have hinner : Follows inner (guardMark child.render) := Follows.inside (by decide) hs1
    have hnone : optionalInside inner = (none, inner) := by
      rw [optionalInside, splitMark_of_follows hinner]
    rw [hnone] at hi hparts
    obtain ⟨rfl, rfl⟩ := List.cons.inj hparts
    obtain ⟨rfl, hd⟩ := h.eq_guardMark hn hinner hi (same_optional.1 hq)
    refine ⟨⟨after, by simp [render], hs1.after, hm⟩, ?_⟩
    rw [isDelimited, hb, hd]
    rfl

theorem exact_choice {bs : List (Mark × Pattern)} (h : ExactBranches dialect registry bs) :
    Exact dialect registry (.choice bs) := by
  intro s r own parts hs hread hsame
  obtain ⟨q, rfl, hq⟩ := exists_of_forall₂_singleton hsame
  rw [render, List.append_assoc, List.append_assoc] at hs
  cases s with
  | nil => exact absurd rfl (ne_nil_of_read?_cons hread)
  | cons x s =>
    obtain ⟨rfl, hs1⟩ := follows_cons.1 hs
    obtain ⟨inner, after, inside, more, he, hi, hm, hparts⟩ := read?_choice.1 hread
    obtain ⟨rfl, hb⟩ := (enclosed_eq_some (by decide)).1 he
    have hinner : Follows inner (Text.join [0x7C] (renderBranches bs)) :=
      Follows.inside (by decide) hs1
    obtain ⟨rfl, rfl⟩ := List.cons.inj hparts
    rw [← join_branches 0 inner] at hinner
    obtain ⟨hpieces, hd⟩ := h _ _ hinner hi (same_choice.1 hq)
    obtain rfl : inner = Text.join [0x7C] (renderBranches bs) := by
      rw [← hpieces, join_branches]
    refine ⟨⟨after, by simp [render], hs1.after, hm⟩, ?_⟩
    rw [isDelimited, hb, hd, hpieces]
    simp

theorem exact_regex (source : Text) (finder : Option Regex.Finder) :
    Exact dialect registry (.regex source finder) := by
  intro s r own parts hs hread hsame
  obtain ⟨q, rfl, hq⟩ := exists_of_forall₂_singleton hsame
  rw [render, List.append_assoc, List.append_assoc] at hs
  cases s with
  | nil => exact absurd rfl (ne_nil_of_read?_cons hread)
  | cons x s =>
    obtain ⟨rfl, hs1⟩ := follows_cons.1 hs
    obtain ⟨source', after, f, more, he, -, hm, hparts⟩ := read?_regex.1 hread
    obtain ⟨rfl, hb⟩ := (enclosed_eq_some (by decide)).1 he
    obtain ⟨rfl, rfl⟩ := List.cons.inj hparts
    obtain ⟨f', hf⟩ := same_regex.1 hq
    obtain ⟨rfl, -⟩ := Pattern.regex.inj hf
    exact ⟨⟨after, by simp [render], hs1.after, hm⟩, hb⟩

theorem exact_slot {slot : Slot} (hn : slot.isNormal registry) :
    Exact dialect registry (.slot slot) := by
  intro s r own parts hs hread hsame
  obtain ⟨q, rfl, hq⟩ := exists_of_forall₂_singleton hsame
  rw [render, renderSlot_eq, List.cons_append, List.append_assoc] at hs
  cases s with
  | nil => exact absurd rfl (ne_nil_of_read?_cons hread)
  | cons x s =>
    obtain ⟨rfl, hs1⟩ := follows_cons.1 hs
    obtain ⟨inner, after, s', more, rfl, hinner, -, hm, hparts⟩ := read?_slot.1 hread
    obtain ⟨rfl, rfl⟩ := List.cons.inj hparts
    -- both stop at the first percent sign
    obtain rfl : inner = slotBody slot := by
      obtain ⟨u, v, huv⟩ := hs1.exists_append
      simp only [List.append_assoc, List.cons_append] at huv
      have hbody := notMem_slotBody hn (b := 0x25) (by decide)
      exact (cut_iff.2 ⟨rfl, hinner⟩).1.symm.trans (cut_iff.2 ⟨huv, hbody⟩).1
    exact ⟨⟨after, by simp [render, renderSlot_eq], hs1.after, hm⟩, rfl⟩

theorem eq_nil_of_readBranches?_nil {pieces : List Text}
    (h : readBranches? dialect registry pieces = some []) : pieces = [] := by
  by_contra hne
  exact readBranches?_ne_nil hne h rfl

theorem exactBranches_cons {mark : Mark} {p : Pattern} {rest : List (Mark × Pattern)}
    (hp : Exact dialect registry p) (hn : p.isNormal dialect registry) (hm : 0 ≤ mark.toInt)
    (hrest : ExactBranches dialect registry rest) :
    ExactBranches dialect registry ((mark, p) :: rest) := by
  intro pieces parts hf hread hsame
  obtain ⟨part, more, ⟨hmark, hpart⟩, hall, rfl⟩ := List.forall₂_cons_right_iff.1 hsame
  cases pieces with
  | nil => simp [readBranches?_nil] at hread
  | cons piece pieces =>
    obtain ⟨inside, more', hi, hmore, heq⟩ := readBranches?_cons.1 hread
    obtain ⟨rfl, rfl⟩ := List.cons.inj heq
    have hbranch (hpiece : Follows piece (renderBranch mark p.render)) :=
      hp.eq_renderBranch hn hm hpiece hmark hi hpart
    cases rest with
    | nil =>
      -- the last branch is all that is left of the choice
      obtain rfl := List.forall₂_nil_right_iff.1 hall
      obtain rfl := eq_nil_of_readBranches?_nil hmore
      obtain ⟨rfl, hd⟩ := hbranch hf
      exact ⟨rfl, by rw [branchesDelimited, hd]; rfl⟩
    | cons b bs =>
      have hpieces : pieces ≠ [] := by
        rintro rfl
        rw [readBranches?_nil, Option.some.injEq] at hmore
        subst hmore
        exact absurd hall.length_eq (by simp)
      rw [renderBranches, Text.join_cons _ _ hpieces, Text.join_cons _ _ (by simp [renderBranches]),
        List.append_assoc, List.append_assoc] at hf
      obtain ⟨rfl, hd⟩ := hbranch (Follows.inside (c := 0x7C) (by decide) hf)
      obtain ⟨rfl, hds⟩ := hrest _ _ (Follows.after (c := 0x7C) hf) hmore hall
      exact ⟨rfl, by rw [branchesDelimited, hd, hds]; rfl⟩

mutual

/-- **A piece that reads as a normal tree** is its rendering, and the tree is delimited. -/
theorem exact {p : Pattern} (hn : p.isNormal dialect registry) : Exact dialect registry p := by
  match p with
  | .text content => exact exact_text hn
  | .sequence children =>
    simp only [isNormal, Bool.and_eq_true] at hn
    exact exactAll hn.1.2 hn.2
  | .optional child =>
    rw [isNormal] at hn
    exact exact_optional (exact hn) hn
  | .choice bs =>
    simp only [isNormal, Bool.and_eq_true] at hn
    exact exact_choice (exactBranches hn.2)
  | .regex source finder => exact exact_regex source finder
  | .slot s => exact exact_slot hn
  | .unknown label => simp [isNormal] at hn

theorem exactAll {ps : List Pattern} (hs : separated ps) (hn : allNormal dialect registry ps) :
    ExactAll dialect registry ps := by
  match ps with
  | [] =>
    intro s r own parts hf hread hsame
    obtain rfl := List.forall₂_nil_right_iff.1 hsame
    exact ⟨⟨s, rfl, hf, hread⟩, rfl⟩
  | p :: ps =>
    simp only [allNormal, Bool.and_eq_true] at hn
    intro s r own parts hf hread hsame
    obtain ⟨q, own', hq, hall, rfl⟩ := List.forall₂_cons_right_iff.1 hsame
    rw [renderAll, List.append_assoc] at hf
    have hitem : p.itemList = [p] := itemList_of_isItem (isItem_of_separated hs)
    obtain ⟨⟨s', rfl, hf', hread'⟩, hd⟩ := exact hn.1 s (renderAll ps ++ r) [q] (own' ++ parts) hf
      hread (hitem ▸ .cons hq .nil)
    obtain ⟨⟨s'', rfl, hrest⟩, hds⟩ :=
      exactAll (separated_tail hs) hn.2 s' r own' parts hf' hread' hall
    refine ⟨⟨s'', by rw [renderAll, List.append_assoc], hrest⟩, ?_⟩
    rw [allDelimited, hd, hds]
    rfl

theorem exactBranches {bs : List (Mark × Pattern)} (hn : branchesNormal dialect registry bs) :
    ExactBranches dialect registry bs := by
  match bs with
  | [] =>
    intro pieces parts _ hread hsame
    obtain rfl := List.forall₂_nil_right_iff.1 hsame
    exact ⟨eq_nil_of_readBranches?_nil hread, rfl⟩
  | (mark, p) :: rest =>
    simp only [branchesNormal, Bool.and_eq_true, decide_eq_true_eq] at hn
    exact exactBranches_cons (exact hn.1.2) hn.1.2 hn.1.1 (exactBranches hn.2)

end

/-- **The round trip holds exactly for delimited trees**: among the trees that are compiled from
well-formed patterns, those whose rendering compiles, and to the same tree, are the delimited
ones. -/
theorem recompiles_iff_isDelimited {pattern : Text} {t : Pattern} (hv : pattern.isValid)
    (h : compile dialect registry pattern = .ok t) :
    (∃ u, compile dialect registry t.render = .ok u ∧ equal? u t = some true) ↔ t.isDelimited := by
  have hn := isNormal_of_compile hv h
  constructor
  · rintro ⟨u, hu, hsame⟩
    obtain ⟨parts, hparts, rfl⟩ := compile_eq_ok.1 hu
    exact ((exact hn).eq_render hn (follows_refl _) hparts hsame).2
  · intro hd
    exact recompiles_of_isDelimited hn hd

/-- A choice of an expression with a lone bracket and a literal bracket.  The two balance as the
pattern is written, but only the literal one gets a backslash in the rendering. -/
def loneBracket : Text :=
  Text.ofString "(<[(]>))"

theorem not_recompiles_loneBracket :
    loneBracket.isValid ∧ ∃ t, compile Regex.backtracking Registry.empty loneBracket = .ok t ∧
      t.isDelimited = false ∧
      ¬ ∃ u, compile Regex.backtracking Registry.empty t.render = .ok u ∧
        equal? u t = some true := by
  have hv : loneBracket.isValid := by decide +kernel
  have hd : (compile Regex.backtracking Registry.empty loneBracket).toOption.map isDelimited =
      some false := by decide +kernel
  obtain ⟨t, ht, hdt⟩ := Option.map_eq_some_iff.1 hd
  have hc := toOption_eq_some.1 ht
  refine ⟨hv, t, hc, hdt, ?_⟩
  rw [recompiles_iff_isDelimited hv hc, hdt]
  exact Bool.false_ne_true

end Pattern

end Phrasebook
