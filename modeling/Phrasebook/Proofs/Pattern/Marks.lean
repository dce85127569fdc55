import Phrasebook.Proofs.Pattern.Spelling

/-!
# The marks of compiled trees

A mark is written in decimal digits and has to fit, so no branch of a compiled tree has a negative
one.

* `Pattern.read?_induction` : what all items and branches that are read have in common follows rule
  by rule, faulty sources left aside.
* `Pattern.marks` : the marks of all branches in a tree.
* `Pattern.marks_nonneg_of_compile` : **no mark of a compiled tree is negative**, whatever the bytes
  of its source.
-/

namespace Phrasebook

namespace Pattern

variable {dialect : Regex.Dialect} {registry : Registry}

/-- **Induction on what is read.**  A property `P` of items and `Q` of branches holds of all that
are read when each rule keeps it. -/
theorem read?_induction {P : List Pattern → Prop} {Q : List (Mark × Pattern) → Prop}
    (text : ∀ pending, P (textItem pending))
    (optional : ∀ pending inner inside more, P inside → P more →
      P (textItem pending ++ optionalItem (optionalInside inner).1 (ofItems inside) :: more))
    (choice : ∀ pending inside more, inside ≠ [] → Q inside → P more →
      P (textItem pending ++ .choice inside :: more))
    (regex : ∀ pending source finder more, balances 0x3C 0x3E source →
      dialect.compile (Regex.anchored source) = .ok finder →
      P more → P (textItem pending ++ .regex source (some finder) :: more))
    (slot : ∀ pending inner s more, readSlot? registry inner = some s → P more →
      P (textItem pending ++ .slot s :: more))
    (nil : Q [])
    (cons : ∀ branch inside more, P inside → Q more →
      Q (((markOf branch).1, ofItems inside) :: more)) :
    (∀ (pending : Text) (_ : Nat) (src : Text) (parts : List Pattern),
      read? dialect registry pending src = some parts → P parts) ∧
    (∀ (_ : Nat) (sources : List Text) (parts : List (Mark × Pattern)),
      readBranches? dialect registry sources = some parts → Q parts) := by
  -- the cases of a group come in pairs, and the first of each is a group without an end
  refine items.mutual_induct
    (fun pending _ src => ∀ parts, read? dialect registry pending src = some parts → P parts)
    (fun _ sources => ∀ parts, readBranches? dialect registry sources = some parts → Q parts)
    ?_ ?_ ?_ ?_ ?_ ?_ ?_ ?_ ?_ ?_ ?_ ?_ ?_ ?_
  · intro pending _ parts h
    rw [read?_nil, Option.some.injEq] at h
    exact h ▸ text pending
  · intro pending _ rest he parts h
    obtain ⟨_, _, _, _, he', -⟩ := read?_optional.1 h
    simp [he] at he'
  · intro pending _ rest inner after he ihInner ihAfter parts h
    obtain ⟨_, _, inside, more, he', hi, hm, rfl⟩ := read?_optional.1 h
    obtain ⟨rfl, rfl⟩ := Prod.mk.inj (Option.some.inj (he.symm.trans he'))
    exact optional _ _ _ _ (ihInner _ hi) (ihAfter _ hm)
  · intro pending _ rest he _ parts h
    obtain ⟨_, _, _, _, he', -⟩ := read?_choice.1 h
    simp [he] at he'
  · intro pending _ rest inner after he _ ihInner ihAfter parts h
    obtain ⟨_, _, inside, more, he', hi, hm, rfl⟩ := read?_choice.1 h
    obtain ⟨rfl, rfl⟩ := Prod.mk.inj (Option.some.inj (he.symm.trans he'))
    exact choice _ _ _ (readBranches?_ne_nil (branches_ne_nil _ _) hi) (ihInner _ hi)
      (ihAfter _ hm)
  · intro pending _ rest he _ _ parts h
    obtain ⟨_, _, _, _, he', -⟩ := read?_regex.1 h
    simp [he] at he'
  · intro pending _ rest inner after he _ _ ihAfter parts h
    obtain ⟨_, _, finder, more, he', hi, hm, rfl⟩ := read?_regex.1 h
    obtain ⟨rfl, rfl⟩ := Prod.mk.inj (Option.some.inj (he.symm.trans he'))
    exact regex _ _ _ _ ((enclosed_eq_some (by decide)).1 he).2 hi (ihAfter _ hm)
  · intro pending _ rest hd _ _ _ parts h
    obtain ⟨inner, after, _, _, hrest, hn, -⟩ := read?_slot.1 h
    have := (cut_iff.2 ⟨hrest, hn⟩).2
    simp [hd] at this
  · intro pending _ rest c after hd inner _ _ _ ihAfter parts h
    obtain ⟨inner', after', s, more, hrest, hn, hi, hm, rfl⟩ := read?_slot.1 h
    obtain rfl : after = after' := by
      have := (cut_iff.2 ⟨hrest, hn⟩).2
      simpa [hd] using this
    exact slot _ _ _ _ hi (ihAfter _ hm)
  · intro pending _ _ _ _ _ parts h
    simp [read?_trailing] at h
  · intro pending _ d rest _ _ _ _ ih parts h
    rw [read?_escape] at h
    exact ih parts h
  · intro pending _ c rest h5B h28 h3C h25 h5C ih parts h
    rw [read?_plain _ _ (by simp_all)] at h
    exact ih parts h
  · intro _ parts h
    rw [readBranches?_nil, Option.some.injEq] at h
    exact h ▸ nil
  · intro _ branch rest ihItems ihRest parts h
    obtain ⟨inside, more, hi, hm, rfl⟩ := readBranches?_cons.1 h
    exact cons _ _ _ (ihItems _ hi) (ihRest _ hm)

/-! ### Marks -/

mutual

/-- The marks of all branches in a tree. -/
def marks : Pattern → List Mark
  | .text _ | .regex _ _ | .slot _ | .unknown _ => []
  | .sequence children => allMarks children
  | .optional child => child.marks
  | .choice alternatives => branchMarks alternatives

/-- The marks of all branches in the trees of a list. -/
def allMarks : List Pattern → List Mark
  | [] => []
  | p :: rest => p.marks ++ allMarks rest

/-- The marks of the branches of a choice, and of all branches in them. -/
def branchMarks : List (Mark × Pattern) → List Mark
  | [] => []
  | (mark, p) :: rest => mark :: p.marks ++ branchMarks rest

end

theorem allMarks_append (ps qs : List Pattern) :
    allMarks (ps ++ qs) = allMarks ps ++ allMarks qs := by
  induction ps with
  | nil => rfl
  | cons p ps ih => rw [List.cons_append, allMarks, allMarks, ih, List.append_assoc]

theorem allMarks_textItem (content : Text) : allMarks (textItem content) = [] := by
  unfold textItem
  split_ifs <;> rfl

theorem marks_ofItems (parts : List Pattern) : (ofItems parts).marks = allMarks parts := by
  match parts with
  | [] => rfl
  | [p] => rw [ofItems, allMarks, allMarks, List.append_nil]
  | p :: q :: rest => rfl

/-- Items with literal text in front have the marks of the first of them and of the others. -/
theorem allMarks_item {pending : Text} {item : Pattern} {more : List Pattern} :
    allMarks (textItem pending ++ item :: more) = item.marks ++ allMarks more := by
  rw [allMarks_append, allMarks_textItem, List.nil_append, allMarks]

theorem toInt_markOf_nonneg (branch : Text) : 0 ≤ (markOf branch).1.toInt := by
  unfold markOf
  split
  · rename_i hs
    exact toInt_nonneg_of_splitMark hs
  · exact Int.le_refl 0

theorem marks_optionalItem_nonneg {inner : Text} {inside : Pattern}
    (h : ∀ mark ∈ inside.marks, 0 ≤ mark.toInt) :
    ∀ mark ∈ (optionalItem (optionalInside inner).1 inside).marks, 0 ≤ mark.toInt := by
  unfold optionalInside optionalItem
  cases hs : splitMark inner with
  | none => exact h
  | some marked =>
    -- the part is a choice of one branch, which has the mark
    simp only [marks, branchMarks, List.append_nil, List.forall_mem_cons]
    exact ⟨toInt_nonneg_of_splitMark hs, h⟩

/-- **No mark of a compiled tree is negative.** -/
theorem marks_nonneg_of_compile {source : Text} {t : Pattern}
    (h : compile dialect registry source = .ok t) : ∀ mark ∈ t.marks, 0 ≤ mark.toInt := by
  obtain ⟨parts, hparts, rfl⟩ := compile_eq_ok.1 h
  rw [marks_ofItems]
  refine (@read?_induction dialect registry (fun parts => ∀ mark ∈ allMarks parts, 0 ≤ mark.toInt)
    (fun branches => ∀ mark ∈ branchMarks branches, 0 ≤ mark.toInt)
    ?_ ?_ ?_ ?_ ?_ ?_ ?_).1 [] 0 source parts hparts
  · intro pending
    simp [allMarks_textItem]
  · intro pending inner inside more hinside hmore
    rw [allMarks_item, List.forall_mem_append]
    rw [← marks_ofItems] at hinside
    exact ⟨marks_optionalItem_nonneg hinside, hmore⟩
  · intro pending inside more _ hinside hmore
    rw [allMarks_item, List.forall_mem_append]
    exact ⟨hinside, hmore⟩
  · intro pending source finder more _ _ hmore
    rw [allMarks_item]
    exact hmore
  · intro pending inner s more _ hmore
    rw [allMarks_item]
    exact hmore
  · simp [branchMarks]
  · intro branch inside more hinside hmore
    rw [branchMarks, List.cons_append, List.forall_mem_cons, List.forall_mem_append, marks_ofItems]
    exact ⟨toInt_markOf_nonneg branch, hinside, hmore⟩

end Pattern

end Phrasebook
