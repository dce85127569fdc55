import Phrasebook.Proofs.Pattern.Slots
import Phrasebook.Proofs.Pattern.Spelling

/-!
# Normal trees

A tree is normal when no other tree could be meant by its rendering: sequences are flat, literal
text is in one piece, and the marks, regular expressions and slots are such as can be written.

* `Pattern.isNormal` : the normal trees.
* `Pattern.isNormal_of_compile` : **compiling gives normal trees**, for every well-formed pattern.
-/

namespace Phrasebook

namespace Pattern

variable {dialect : Regex.Dialect} {registry : Registry}

mutual

/-- Whether a tree is normal: a sequence has two parts at least, none of them a sequence or an empty
text and no two neighbours both text; a choice has branches, and their marks are not negative; texts
are well formed, and the expressions and slots can be read back.  The source of an expression is
accepted when the anchored source that is made of it compiles, since it is searched with in no other
form; by itself it may compile where that does not, as when it ends in a comment. -/
@[simp]
def isNormal (dialect : Regex.Dialect) (registry : Registry) : Pattern → Bool
  | .text content => content.isValid
  | .sequence children =>
    decide (2 ≤ children.length) && separated children && allNormal dialect registry children
  | .optional child => isNormal dialect registry child
  | .choice alternatives =>
    !alternatives.isEmpty && branchesNormal dialect registry alternatives
  | .regex source _ => (dialect.compile (Regex.anchored source)).isOk
  | .slot s => s.isNormal registry
  | .unknown _ => false

/-- Whether all trees of a list are normal. -/
@[simp]
def allNormal (dialect : Regex.Dialect) (registry : Registry) : List Pattern → Bool
  | [] => true
  | p :: ps => isNormal dialect registry p && allNormal dialect registry ps

/-- Whether all branches of a choice are normal. -/
@[simp]
def branchesNormal (dialect : Regex.Dialect) (registry : Registry) : List (Mark × Pattern) → Bool
  | [] => true
  | (mark, p) :: rest =>
    decide (0 ≤ mark.toInt) && isNormal dialect registry p && branchesNormal dialect registry rest

end

theorem allNormal_append {ps qs : List Pattern} :
    allNormal dialect registry (ps ++ qs) =
      (allNormal dialect registry ps && allNormal dialect registry qs) := by
  induction ps with
  | nil => rfl
  | cons p ps ih => rw [List.cons_append, allNormal, allNormal, ih, Bool.and_assoc]

/-- A tree of normal items is normal. -/
theorem isNormal_ofItems {parts : List Pattern} (hs : separated parts)
    (hn : allNormal dialect registry parts) : (ofItems parts).isNormal dialect registry := by
  match parts with
  | [] => exact Text.isValid_iff.2 ⟨[], rfl⟩
  | [p] =>
    simp only [allNormal, Bool.and_true] at hn
    exact hn
  | p :: q :: rest =>
    simp only [ofItems, isNormal, hs, hn, Bool.and_true, decide_eq_true_eq, List.length_cons]
    omega

/-! ### Well-formed parts of well-formed patterns -/

theorem isValid_of_digits {digits t : Text} (hd : digits.all isDigit) (h : (digits ++ t).isValid) :
    t.isValid := by
  induction digits with
  | nil => exact h
  | cons b digits ih =>
    rw [List.all_cons, Bool.and_eq_true] at hd
    refine ih hd.2 (Text.isValid_of_split (s := []) (b := b) ?_ h).2
    simp only [isDigit, Bool.and_eq_true, decide_eq_true_eq, UInt8.le_iff_toNat_le] at hd
    exact Nat.lt_of_le_of_lt hd.1.2 (by decide)

theorem isValid_of_splitMark {t : Text} {marked : Mark × Text} (h : splitMark t = some marked)
    (ht : t.isValid) : marked.2.isValid := by
  obtain ⟨digits, rfl, hd, -⟩ := guardMark_of_some h
  rw [List.append_assoc] at ht
  exact Text.isValid_of_encodeChar_append (c := '¦') (isValid_of_digits hd ht)

theorem isValid_optionalInside {inner : Text} (h : inner.isValid) :
    (optionalInside inner).2.isValid := by
  unfold optionalInside
  split
  · rename_i hs
    exact isValid_of_splitMark hs h
  · exact h

theorem markOf_isValid {branch : Text} (h : branch.isValid) :
    0 ≤ (markOf branch).1.toInt ∧ (markOf branch).2.isValid := by
  unfold markOf
  split
  · rename_i hs
    exact ⟨toInt_nonneg_of_splitMark hs, isValid_of_splitMark hs h⟩
  · exact ⟨Int.le_refl 0, h⟩

theorem isValid_of_join {pieces : List Text} (h : (Text.join [0x7C] pieces).isValid) :
    ∀ p ∈ pieces, Text.isValid p := by
  induction pieces with
  | nil => simp
  | cons p ps ih =>
    by_cases hnil : ps = []
    · subst hnil
      simpa [Text.join] using h
    · rw [Text.join_cons _ _ hnil, List.append_assoc] at h
      obtain ⟨hp, hps⟩ := Text.isValid_of_split (b := 0x7C) (by decide) h
      exact List.forall_mem_cons.2 ⟨hp, ih hps⟩

theorem isValid_branches {inner : Text} (h : inner.isValid) :
    ∀ p ∈ branches 0 inner, Text.isValid p :=
  isValid_of_join (by rwa [join_branches])

theorem allNormal_textItem {content : Text} (h : content.isValid) :
    allNormal dialect registry (textItem content) := by
  unfold textItem
  split_ifs
  · rfl
  · simpa [allNormal, isNormal] using h

/-! ### What is read is normal -/

theorem isNormal_optionalItem {inner : Text} {inside : Pattern}
    (h : inside.isNormal dialect registry) :
    (optionalItem (optionalInside inner).1 inside).isNormal dialect registry := by
  unfold optionalInside optionalItem
  cases hs : splitMark inner with
  | none => simpa [isNormal] using h
  | some marked =>
    simp only [isNormal, branchesNormal, List.isEmpty_cons, Bool.not_false, Bool.true_and, h,
      Bool.and_true, decide_eq_true_eq]
    exact toInt_nonneg_of_splitMark hs

theorem allNormal_textItem_cons {content : Text} {item : Pattern} {more : List Pattern}
    (hc : content.isValid) (hi : item.isNormal dialect registry)
    (hm : allNormal dialect registry more) :
    allNormal dialect registry (textItem content ++ item :: more) := by
  rw [allNormal_append, allNormal_textItem hc, allNormal, hi, hm]
  rfl

theorem isOk_of_eq_ok {source : Text} {finder : Regex.Finder}
    (h : dialect.compile (Regex.anchored source) = .ok finder) :
    (Pattern.regex source (some finder)).isNormal dialect registry := by
  rw [isNormal, h]
  rfl

/-- Items and branches that are read from well-formed sources are normal. -/
theorem normal_of_read :
    (∀ (pending : Text) (_ : Nat) (src : Text), (pending ++ src).isValid →
      ∀ parts, read? dialect registry pending src = some parts →
        allNormal dialect registry parts) ∧
    (∀ (_ : Nat) (sources : List Text), (∀ s ∈ sources, Text.isValid s) →
      ∀ parts, readBranches? dialect registry sources = some parts →
        branchesNormal dialect registry parts) := by
  -- a group is cut out of its source at ASCII bytes, which leaves well-formed parts; that a group
  -- without an end is not read settles the other cases
  refine items.mutual_induct
    (fun pending _ src => (pending ++ src).isValid →
      ∀ parts, read? dialect registry pending src = some parts → allNormal dialect registry parts)
    (fun _ sources => (∀ s ∈ sources, Text.isValid s) →
      ∀ parts, readBranches? dialect registry sources = some parts →
        branchesNormal dialect registry parts)
    ?_ ?_ ?_ ?_ ?_ ?_ ?_ ?_ ?_ ?_ ?_ ?_ ?_ ?_
  · intro pending _ hv parts h
    rw [read?_nil, Option.some.injEq] at h
    subst h
    rw [List.append_nil] at hv
    exact allNormal_textItem hv
  · intro pending _ rest he _ parts h
    obtain ⟨_, _, _, _, he', -⟩ := read?_optional.1 h
    simp [he] at he'
  · intro pending _ rest inner after he ihInner ihAfter hv parts h
    obtain ⟨_, _, inside, more, he', hi, hm, rfl⟩ := read?_optional.1 h
    obtain ⟨rfl, rfl⟩ := Prod.mk.inj (Option.some.inj (he.symm.trans he'))
    obtain ⟨hp, hrest⟩ := Text.isValid_of_split (by decide) hv
    rw [enclosed_eq he] at hrest
    obtain ⟨hinner, hafter⟩ := Text.isValid_of_split (by decide) hrest
    refine allNormal_textItem_cons hp (isNormal_optionalItem ?_) (ihAfter hafter _ hm)
    exact isNormal_ofItems (read?_separated hi) (ihInner (isValid_optionalInside hinner) _ hi)
  · intro pending _ rest he _ _ parts h
    obtain ⟨_, _, _, _, he', -⟩ := read?_choice.1 h
    simp [he] at he'
  · intro pending _ rest inner after he _ ihInner ihAfter hv parts h
    obtain ⟨_, _, inside, more, he', hi, hm, rfl⟩ := read?_choice.1 h
    obtain ⟨rfl, rfl⟩ := Prod.mk.inj (Option.some.inj (he.symm.trans he'))
    obtain ⟨hp, hrest⟩ := Text.isValid_of_split (by decide) hv
    rw [enclosed_eq he] at hrest
    obtain ⟨hinner, hafter⟩ := Text.isValid_of_split (by decide) hrest
    refine allNormal_textItem_cons hp ?_ (ihAfter hafter _ hm)
    rw [isNormal, ihInner (isValid_branches hinner) _ hi, Bool.and_true, Bool.not_eq_true',
      List.isEmpty_eq_false_iff]
    exact readBranches?_ne_nil (branches_ne_nil _ _) hi
  · intro pending _ rest he _ _ _ parts h
    obtain ⟨_, _, _, _, he', -⟩ := read?_regex.1 h
    simp [he] at he'
  · intro pending _ rest inner after he _ _ ihAfter hv parts h
    obtain ⟨_, _, finder, more, he', hi, hm, rfl⟩ := read?_regex.1 h
    obtain ⟨rfl, rfl⟩ := Prod.mk.inj (Option.some.inj (he.symm.trans he'))
    obtain ⟨hp, hrest⟩ := Text.isValid_of_split (by decide) hv
    rw [enclosed_eq he] at hrest
    obtain ⟨-, hafter⟩ := Text.isValid_of_split (by decide) hrest
    exact allNormal_textItem_cons hp (isOk_of_eq_ok hi) (ihAfter hafter _ hm)
  · intro pending _ rest hd _ _ _ _ parts h
    obtain ⟨inner, after, _, _, hrest, hn, -⟩ := read?_slot.1 h
    have := (cut_iff.2 ⟨hrest, hn⟩).2
    simp [hd] at this
  · intro pending _ rest c after hd inner _ _ _ ihAfter hv parts h
    obtain ⟨inner', after', slot, more, hrest, hn, hi, hm, rfl⟩ := read?_slot.1 h
    obtain rfl : after = after' := by
      have := (cut_iff.2 ⟨hrest, hn⟩).2
      simpa [hd] using this
    obtain ⟨hp, hv⟩ := Text.isValid_of_split (by decide) hv
    rw [hrest] at hv
    obtain ⟨-, hafter⟩ := Text.isValid_of_split (by decide) hv
    exact allNormal_textItem_cons hp (isNormal_of_readSlot? hi) (ihAfter hafter _ hm)
  · intro pending _ _ _ _ _ _ parts h
    simp [read?_trailing] at h
  · intro pending _ d rest _ _ _ _ ih hv parts h
    rw [read?_escape] at h
    obtain ⟨hp, hrest⟩ := Text.isValid_of_split (by decide) hv
    refine ih ?_ parts h
    rw [List.append_assoc]
    exact Text.isValid_append hp hrest
  · intro pending _ c rest h5B h28 h3C h25 h5C ih hv parts h
    rw [read?_plain _ _ (by simp_all)] at h
    refine ih ?_ parts h
    rwa [List.append_assoc]
  · intro _ _ parts h
    rw [readBranches?_nil, Option.some.injEq] at h
    subst h
    rfl
  · intro _ branch rest ihItems ihRest hv parts h
    obtain ⟨hbranch, hrest⟩ := List.forall_mem_cons.1 hv
    obtain ⟨inside, more, hi, hm, rfl⟩ := readBranches?_cons.1 h
    obtain ⟨hmark, hinside⟩ := markOf_isValid hbranch
    rw [branchesNormal, isNormal_ofItems (read?_separated hi) (ihItems hinside _ hi),
      ihRest hrest _ hm]
    simpa using hmark

/-- **Compiling a well-formed pattern** gives a normal tree. -/
theorem isNormal_of_compile {pattern : Text} {t : Pattern} (hv : pattern.isValid)
    (h : compile dialect registry pattern = .ok t) : t.isNormal dialect registry := by
  obtain ⟨parts, hparts, rfl⟩ := compile_eq_ok.1 h
  exact isNormal_ofItems (read?_separated hparts) (normal_of_read.1 [] 0 pattern hv parts hparts)

end Pattern

end Phrasebook
