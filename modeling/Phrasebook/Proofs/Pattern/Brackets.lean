import Mathlib.Data.Bool.AllAny
import Mathlib.Data.List.Basic
import Phrasebook.Pattern.Compile
import Phrasebook.Proofs.Text.Pieces

/-!
# Brackets

Two scanners look for the structure of a group: `Pattern.enclosed` follows the brackets of one kind
to the end of the group, and `Pattern.branches` follows those of all kinds to the bars of a choice.
Both keep a depth and step over a backslash with the byte after it.  `Pattern.walk` is that walk by
itself, for any way of counting.

* `Pattern.enclosed_eq_some` : a group ends at the first closing bracket after a balanced inside.
* `Pattern.join_branches` : the branches with bars between them are the inside of the choice.
* `Pattern.branches_join` : pieces without a bar at their top are the branches they are joined to.
* `Pattern.EscapesPaired` : no backslash is left without a byte that it escapes.
* `Pattern.walk_barStep` : where every kind of bracket balances, the bars are inside the group.
-/

namespace Phrasebook

namespace Pattern

/-! ### Walks -/

/-- The depth after a text. A backslash and the byte after it count for nothing; each other byte
changes the depth or ends the walk. -/
def walk (step : Nat → UInt8 → Option Nat) (depth : Nat) : Text → Option Nat
  | [] => some depth
  | c :: rest =>
    if c = 0x5C then
      match rest with
      | [] => none
      | _ :: rest => walk step depth rest
    else (step depth c).bind fun depth => walk step depth rest

/-- How one kind of bracket counts: nothing may be closed that has not been opened. -/
def bracketStep (opening closing : UInt8) (depth : Nat) (c : UInt8) : Option Nat :=
  if c = closing then
    match depth with
    | 0 => none
    | depth + 1 => some depth
  else if c = opening then some (depth + 1)
  else some depth

/-- How the brackets of all kinds count for the bars of a choice: no bar may stand outside them. -/
def barStep (depth : Nat) (c : UInt8) : Option Nat :=
  if isOpening c then some (depth + 1)
  else if isClosing c then some (depth - 1)
  else if c = 0x7C ∧ depth = 0 then none
  else some depth

/-- Whether the brackets of one kind balance in a text. -/
def balances (opening closing : UInt8) (t : Text) : Bool :=
  walk (bracketStep opening closing) 0 t == some 0

/-- The kinds of brackets. -/
def bracketPairs : List (UInt8 × UInt8) :=
  [(0x28, 0x29), (0x5B, 0x5D), (0x3C, 0x3E)]

/-- Whether the brackets of each kind balance in a text. -/
def isBalanced (t : Text) : Bool :=
  bracketPairs.all fun p => balances p.1 p.2 t

/-- The bytes that make up the structure of a group. -/
def groupBytes : Text :=
  Text.ofString "\\[]()<>|"

/-- A way of counting for which only the bytes of groups count. -/
def Neutral (step : Nat → UInt8 → Option Nat) : Prop :=
  ∀ depth, ∀ b, b ∉ groupBytes → step depth b = some depth

variable {step : Nat → UInt8 → Option Nat} {s t : Text} {d e : Nat}

theorem walk_escape (c : UInt8) : walk step d (0x5C :: c :: t) = walk step d t := by
  rw [walk.eq_def]
  rfl

theorem walk_cons {c : UInt8} (hc : c ≠ 0x5C) :
    walk step d (c :: t) = (step d c).bind fun depth => walk step depth t := by
  rw [walk.eq_def]
  exact if_neg hc

/-- A walk over two texts is a walk over one and then over the other. -/
theorem walk_append (h : walk step d s = some e) : walk step d (s ++ t) = walk step e t := by
  fun_induction walk step d s with
  | case1 => simp_all
  | case2 => simp at h
  | case3 d c rest ih =>
    rw [List.cons_append, List.cons_append, walk_escape]
    exact ih h
  | case4 d c rest hc ih =>
    obtain ⟨depth, hd, hw⟩ := Option.bind_eq_some_iff.1 h
    rw [List.cons_append, walk_cons hc, hd]
    exact ih depth hw

theorem walk_of_neutral (hs : Neutral step) (h : ∀ b ∈ t, b ∉ groupBytes) :
    walk step d t = some d := by
  induction t with
  | nil => rfl
  | cons b t ih =>
    obtain ⟨hb, ht⟩ := List.forall_mem_cons.1 h
    have hne : b ≠ 0x5C := by
      rintro rfl
      exact hb (by decide)
    rw [walk_cons hne, hs d b hb]
    exact ih ht

/-- Each backslash of the text escapes a byte of it. -/
def EscapesPaired (t : Text) : Prop :=
  walk (fun depth _ => some depth) 0 t = some 0

/-- Where some walk goes through, the escapes are paired. -/
theorem escapesPaired_of_walk (h : walk step d t = some e) : EscapesPaired t := by
  unfold EscapesPaired
  fun_induction walk step d t with
  | case1 => rfl
  | case2 => simp at h
  | case3 d c rest ih =>
    rw [walk_escape]
    exact ih h
  | case4 d c rest hc ih =>
    obtain ⟨depth, -, hw⟩ := Option.bind_eq_some_iff.1 h
    rw [walk_cons hc]
    exact ih depth hw

theorem escapesPaired_of_notMem (h : 0x5C ∉ t) : EscapesPaired t := by
  induction t with
  | nil => rfl
  | cons b t ih =>
    obtain ⟨hb, ht⟩ := not_or.1 (mt List.mem_cons.2 h)
    rw [EscapesPaired, walk_cons (Ne.symm hb)]
    exact ih ht

theorem EscapesPaired.append_iff (h : EscapesPaired s) :
    EscapesPaired (s ++ t) ↔ EscapesPaired t := by
  unfold EscapesPaired
  rw [walk_append h]

theorem neutral_bracketStep {p : UInt8 × UInt8} (h : p ∈ bracketPairs) :
    Neutral (bracketStep p.1 p.2) := by
  intro depth b hb
  have hpairs : ∀ p ∈ bracketPairs, p.1 ∈ groupBytes ∧ p.2 ∈ groupBytes :=
    List.all_iff_forall_prop.1 (by decide)
  obtain ⟨ho, hc⟩ := hpairs p h
  unfold bracketStep
  rw [if_neg (by rintro rfl; exact hb hc), if_neg (by rintro rfl; exact hb ho)]

theorem neutral_barStep : Neutral barStep := by
  intro depth b hb
  unfold barStep isOpening isClosing
  have hspecial : ∀ c ∈ ([0x28, 0x5B, 0x3C, 0x29, 0x5D, 0x3E, 0x7C] : Text), b ≠ c := by
    rintro c hc rfl
    have hall : ∀ a ∈ ([0x28, 0x5B, 0x3C, 0x29, 0x5D, 0x3E, 0x7C] : Text), a ∈ groupBytes :=
      List.all_iff_forall_prop.1 (by decide)
    exact hb (hall b hc)
  simp_all

/-! ### The end of a group -/

theorem walk_bracketStep_add {o c : UInt8} (k : Nat) (h : walk (bracketStep o c) d s = some e) :
    walk (bracketStep o c) (d + k) s = some (e + k) := by
  fun_induction walk (bracketStep o c) d s with
  | case1 => simp_all [walk]
  | case2 => simp at h
  | case3 d b rest ih =>
    rw [walk_escape]
    exact ih h
  | case4 d b rest hb ih =>
    obtain ⟨depth, hd, hw⟩ := Option.bind_eq_some_iff.1 h
    have hstep : bracketStep o c (d + k) b = some (depth + k) := by
      unfold bracketStep at hd ⊢
      split_ifs at hd ⊢ with h1 h2
      · cases d with
        | zero => simp at hd
        | succ d =>
          obtain rfl := Option.some.inj hd
          rw [Nat.add_right_comm]
      · obtain rfl := Option.some.inj hd
        rw [Nat.add_right_comm]
      · obtain rfl := Option.some.inj hd
        rfl
    rw [walk_cons hb, hstep]
    exact ih depth hw

theorem enclosed_escape {o c : UInt8} (b : UInt8) :
    enclosed o c d (0x5C :: b :: t) =
      (enclosed o c d t).map fun p => (0x5C :: b :: p.1, p.2) := by
  rw [enclosed.eq_def]
  rfl

theorem enclosed_cons {o c b : UInt8} (hb : b ≠ 0x5C) (h : bracketStep o c d b = some e) :
    enclosed o c d (b :: t) = (enclosed o c e t).map fun p => (b :: p.1, p.2) := by
  rw [enclosed.eq_def]
  unfold bracketStep at h
  simp only [hb, ↓reduceIte]
  split_ifs at h ⊢ with h1 h2
  · cases d with
    | zero => simp at h
    | succ d =>
      obtain rfl := Option.some.inj h
      rfl
  · obtain rfl := Option.some.inj h
    rfl
  · obtain rfl := Option.some.inj h
    rfl

theorem enclosed_closing {o c : UInt8} (hc : c ≠ 0x5C) :
    enclosed o c 0 (c :: t) = some ([], t) := by
  rw [enclosed.eq_def]
  simp [hc]

/-- The search for the end of a group passes over what does not close it. -/
theorem enclosed_append {o c : UInt8} (h : walk (bracketStep o c) d s = some e) :
    enclosed o c d (s ++ t) = (enclosed o c e t).map fun p => (s ++ p.1, p.2) := by
  fun_induction walk (bracketStep o c) d s with
  | case1 =>
    obtain rfl := Option.some.inj h
    simp
  | case2 => simp at h
  | case3 d b rest ih =>
    rw [List.cons_append, List.cons_append, enclosed_escape, ih h, Option.map_map]
    rfl
  | case4 d b rest hb ih =>
    obtain ⟨depth, hd, hw⟩ := Option.bind_eq_some_iff.1 h
    rw [List.cons_append, enclosed_cons hb hd, ih depth hw, Option.map_map]
    rfl

/-- What the search finds leads back to the depth of the group. -/
theorem walk_of_enclosed {o c : UInt8} {inner after : Text}
    (h : enclosed o c d t = some (inner, after)) : walk (bracketStep o c) d inner = some 0 := by
  fun_induction enclosed o c d t generalizing inner after with
  | case1 => simp at h
  | case2 => simp at h
  | case3 d b rest ih =>
    obtain ⟨⟨i, a⟩, he, hp⟩ := Option.map_eq_some_iff.1 h
    obtain ⟨rfl, rfl⟩ := Prod.mk.inj hp
    rw [walk_escape]
    exact ih he
  | case4 rest hc =>
    obtain ⟨rfl, rfl⟩ := Prod.mk.inj (Option.some.inj h)
    rfl
  | case5 d rest hc ih =>
    obtain ⟨⟨i, a⟩, he, hp⟩ := Option.map_eq_some_iff.1 h
    obtain ⟨rfl, rfl⟩ := Prod.mk.inj hp
    rw [walk_cons hc, bracketStep.eq_def, if_pos rfl]
    exact ih he
  | case6 d rest hc hne ih =>
    obtain ⟨⟨i, a⟩, he, hp⟩ := Option.map_eq_some_iff.1 h
    obtain ⟨rfl, rfl⟩ := Prod.mk.inj hp
    rw [walk_cons hc, bracketStep.eq_def, if_neg hne, if_pos rfl]
    exact ih he
  | case7 d b rest hb h1 h2 ih =>
    obtain ⟨⟨i, a⟩, he, hp⟩ := Option.map_eq_some_iff.1 h
    obtain ⟨rfl, rfl⟩ := Prod.mk.inj hp
    rw [walk_cons hb, bracketStep.eq_def, if_neg h1, if_neg h2]
    exact ih he

/-- **The end of a group** is the first closing bracket of its kind after an inside in which the
brackets of that kind balance. -/
theorem enclosed_eq_some {o c : UInt8} (hc : c ≠ 0x5C) {inner after : Text} :
    enclosed o c 0 t = some (inner, after) ↔ t = inner ++ c :: after ∧ balances o c inner := by
  rw [balances, beq_iff_eq]
  constructor
  · intro h
    exact ⟨enclosed_eq h, walk_of_enclosed h⟩
  · rintro ⟨rfl, hw⟩
    rw [enclosed_append hw, enclosed_closing hc]
    simp

/-! ### The bars of a choice -/

theorem extendFirst_nil {ps : List Text} (h : ps ≠ []) : extendFirst [] ps = ps := by
  cases ps with
  | nil => exact absurd rfl h
  | cons p ps => rfl

theorem extendFirst_extendFirst (a b : Text) (ps : List Text) :
    extendFirst a (extendFirst b ps) = extendFirst (a ++ b) ps := by
  cases ps <;> simp [extendFirst]

theorem branches_escape (b : UInt8) :
    branches d (0x5C :: b :: t) = extendFirst [0x5C, b] (branches d t) := by
  rw [branches.eq_def]
  rfl

theorem branches_cons {b : UInt8} (hb : b ≠ 0x5C) (h : barStep d b = some e) :
    branches d (b :: t) = extendFirst [b] (branches e t) := by
  rw [branches.eq_def]
  unfold barStep at h
  simp only [hb, ↓reduceIte]
  split_ifs at h ⊢ <;> simp_all

theorem branches_bar : branches 0 (0x7C :: t) = [] :: branches 0 t := by
  rw [branches.eq_def]
  rfl

/-- The search for bars passes over what has none outside its brackets. -/
theorem branches_append (h : walk barStep d s = some e) :
    branches d (s ++ t) = extendFirst s (branches e t) := by
  fun_induction walk barStep d s with
  | case1 =>
    obtain rfl := Option.some.inj h
    rw [List.nil_append, extendFirst_nil (branches_ne_nil _ _)]
  | case2 => simp at h
  | case3 d b rest ih =>
    rw [List.cons_append, List.cons_append, branches_escape, ih h, extendFirst_extendFirst]
    rfl
  | case4 d b rest hb ih =>
    obtain ⟨depth, hd, hw⟩ := Option.bind_eq_some_iff.1 h
    rw [List.cons_append, branches_cons hb hd, ih depth hw, extendFirst_extendFirst]
    rfl

/-- Pieces that have no bar outside their brackets are the branches of the choice they make. -/
theorem branches_join {pieces : List Text} (hne : pieces ≠ [])
    (h : ∀ p ∈ pieces, walk barStep 0 p = some 0) :
    branches 0 (Text.join [0x7C] pieces) = pieces := by
  induction pieces with
  | nil => exact absurd rfl hne
  | cons p ps ih =>
    obtain ⟨hp, hps⟩ := List.forall_mem_cons.1 h
    by_cases hnil : ps = []
    · subst hnil
      have := branches_append (t := []) hp
      simpa [Text.join, branches, extendFirst] using this
    · rw [Text.join_cons _ _ hnil, List.append_assoc, branches_append hp]
      change extendFirst p (branches 0 (0x7C :: Text.join [0x7C] ps)) = _
      rw [branches_bar, ih hnil hps]
      simp [extendFirst]

theorem join_extendFirst (front : Text) {ps : List Text} (h : ps ≠ []) :
    Text.join [0x7C] (extendFirst front ps) = front ++ Text.join [0x7C] ps := by
  match ps with
  | [] => exact absurd rfl h
  | [p] => rfl
  | p :: q :: ps => simp [extendFirst, Text.join]

/-- The branches of a choice, with bars between them, are its inside. -/
theorem join_branches (d : Nat) (t : Text) : Text.join [0x7C] (branches d t) = t := by
  fun_induction branches d t with
  | case1 => rfl
  | case2 => rfl
  | case3 d b rest ih => rw [join_extendFirst _ (branches_ne_nil _ _), ih]; rfl
  | case4 d b rest hb h1 ih => rw [join_extendFirst _ (branches_ne_nil _ _), ih]; rfl
  | case5 d b rest hb h1 h2 ih => rw [join_extendFirst _ (branches_ne_nil _ _), ih]; rfl
  | case6 d b rest hb h1 h2 h3 ih =>
    -- the bar that was dropped is the one `join` puts back
    rw [Text.join_cons _ _ (branches_ne_nil _ _), ih, h3.1]
    rfl
  | case7 d b rest hb h1 h2 h3 ih => rw [join_extendFirst _ (branches_ne_nil _ _), ih]; rfl

theorem escapesPaired_of_mem_extendFirst {front p : Text} {ps : List Text}
    (hfront : EscapesPaired front) (h : ∀ p ∈ ps, EscapesPaired p) (hp : p ∈ extendFirst front ps) :
    EscapesPaired p := by
  cases ps with
  | nil =>
    obtain rfl := List.mem_singleton.1 hp
    exact hfront
  | cons q ps =>
    obtain ⟨hq, hps⟩ := List.forall_mem_cons.1 h
    rcases List.mem_cons.1 hp with rfl | hp
    · exact hfront.append_iff.2 hq
    · exact hps p hp

/-- Where the escapes of a choice are paired, those of its branches are. -/
theorem escapesPaired_of_mem_branches (h : EscapesPaired t) :
    ∀ p ∈ branches d t, EscapesPaired p := by
  have single {b : UInt8} (hb : b ≠ 0x5C) : EscapesPaired [b] :=
    escapesPaired_of_notMem (by simpa using Ne.symm hb)
  have tail {b : UInt8} {t : Text} (hb : b ≠ 0x5C) (h : EscapesPaired (b :: t)) :
      EscapesPaired t := (single hb).append_iff.1 h
  fun_induction branches d t with
  | case1 => simpa using h
  | case2 => cases h
  | case3 d b rest ih =>
    have hescape : EscapesPaired [0x5C, b] := rfl
    have hrest : EscapesPaired rest := hescape.append_iff.1 h
    exact fun p hp => escapesPaired_of_mem_extendFirst hescape (ih hrest) hp
  | case4 d b rest hb _ ih =>
    exact fun p hp => escapesPaired_of_mem_extendFirst (single hb) (ih (tail hb h)) hp
  | case5 d b rest hb _ _ ih =>
    exact fun p hp => escapesPaired_of_mem_extendFirst (single hb) (ih (tail hb h)) hp
  | case6 d b rest hb _ _ _ ih =>
    exact List.forall_mem_cons.2 ⟨rfl, ih (tail hb h)⟩
  | case7 d b rest hb _ _ _ ih =>
    exact fun p hp => escapesPaired_of_mem_extendFirst (single hb) (ih (tail hb h)) hp

/-! ### Balanced texts -/

/-- One byte changes the depth by one at most: down if it closes, up if it opens. -/
theorem depth_of_bracketStep {o c x : UInt8} (hne : o ≠ c) (h : bracketStep o c d x = some e) :
    e + (if x = c then 1 else 0) = d + (if x = o then 1 else 0) := by
  unfold bracketStep at h
  split_ifs at h ⊢ with hc ho
  · exact absurd (ho.symm.trans hc) hne
  · cases d with
    | zero => simp at h
    | succ d => simpa using h.symm
  · simpa using h.symm
  · simpa using h.symm

theorem barStep_of_bracketStep {a b c a' b' c' : Nat} {x : UInt8}
    (h1 : bracketStep 0x28 0x29 a x = some a') (h2 : bracketStep 0x5B 0x5D b x = some b')
    (h3 : bracketStep 0x3C 0x3E c x = some c') :
    barStep (a + b + c + 1) x = some (a' + b' + c' + 1) := by
  have hd1 := depth_of_bracketStep (by decide) h1
  have hd2 := depth_of_bracketStep (by decide) h2
  have hd3 := depth_of_bracketStep (by decide) h3
  -- a bracket changes one of the three depths, and any other byte none
  by_cases hx : x ∈ ([0x28, 0x29, 0x5B, 0x5D, 0x3C, 0x3E] : Text)
  · simp only [List.mem_cons, List.not_mem_nil, or_false] at hx
    obtain rfl | rfl | rfl | rfl | rfl | rfl := hx
    all_goals
      simp +decide only [↓reduceIte] at hd1 hd2 hd3
      exact congrArg some (by omega)
  · simp only [List.mem_cons, List.not_mem_nil, or_false, not_or] at hx
    simp_all [barStep, isOpening, isClosing]

/-- **Where each kind of bracket balances**, the depth over all kinds is the sum of their depths,
and inside a group no bar stands outside the brackets. -/
theorem walk_barStep {a b c a' b' c' : Nat} (t : Text)
    (h1 : walk (bracketStep 0x28 0x29) a t = some a')
    (h2 : walk (bracketStep 0x5B 0x5D) b t = some b')
    (h3 : walk (bracketStep 0x3C 0x3E) c t = some c') :
    walk barStep (a + b + c + 1) t = some (a' + b' + c' + 1) := by
  match t with
  | [] => simp_all [walk]
  | x :: t =>
    by_cases hx : x = 0x5C
    · subst hx
      cases t with
      | nil => simp [walk] at h1
      | cons y t =>
        rw [walk_escape] at h1 h2 h3 ⊢
        exact walk_barStep t h1 h2 h3
    · rw [walk_cons hx] at h1 h2 h3 ⊢
      obtain ⟨d1, hd1, hw1⟩ := Option.bind_eq_some_iff.1 h1
      obtain ⟨d2, hd2, hw2⟩ := Option.bind_eq_some_iff.1 h2
      obtain ⟨d3, hd3, hw3⟩ := Option.bind_eq_some_iff.1 h3
      rw [barStep_of_bracketStep hd1 hd2 hd3]
      exact walk_barStep t hw1 hw2 hw3
termination_by t.length

theorem isBalanced_iff : isBalanced t ↔
    ∀ p ∈ bracketPairs, walk (bracketStep p.1 p.2) 0 t = some 0 := by
  simp [isBalanced, balances]

theorem isBalanced_append (hs : isBalanced s) (ht : isBalanced t) : isBalanced (s ++ t) := by
  rw [isBalanced_iff] at *
  intro p hp
  rw [walk_append (hs p hp), ht p hp]

/-- A balanced text between brackets of one kind is balanced. -/
theorem isBalanced_group {o c : UInt8} (h : (o, c) ∈ bracketPairs) (ht : isBalanced t) :
    isBalanced (([o] : Text) ++ t ++ [c]) := by
  -- brackets of the group's own kind count one more inside it, and those of another kind the same
  have hpairs : bracketPairs.all fun g => bracketPairs.all fun p =>
      walk (bracketStep p.1 p.2) 0 [g.1] == some (if g = p then 1 else 0) &&
        walk (bracketStep p.1 p.2) (if g = p then 1 else 0) [g.2] == some 0 := by decide
  refine isBalanced_iff.2 fun p hp => ?_
  have hboth := List.all_eq_true.1 (List.all_eq_true.1 hpairs _ h) p hp
  simp only [Bool.and_eq_true, beq_iff_eq] at hboth
  obtain ⟨ho, hc⟩ := hboth
  have hinside := walk_bracketStep_add (if (o, c) = p then 1 else 0) (isBalanced_iff.1 ht p hp)
  rw [Nat.zero_add] at hinside
  rw [List.append_assoc, walk_append ho, walk_append hinside, hc]

/-- A balanced text between brackets has no bar outside of them. -/
theorem walk_barStep_group {o c : UInt8} (h : (o, c) ∈ bracketPairs) (ht : isBalanced t) :
    walk barStep 0 (([o] : Text) ++ t ++ [c]) = some 0 := by
  have hpairs : ∀ g ∈ bracketPairs,
      walk barStep 0 [g.1] = some 1 ∧ walk barStep 1 [g.2] = some 0 :=
    List.all_iff_forall_prop.1 (by decide)
  obtain ⟨ho, hc⟩ := hpairs _ h
  have hinside : walk barStep (0 + 0 + 0 + 1) t = some (0 + 0 + 0 + 1) :=
    walk_barStep t (isBalanced_iff.1 ht (0x28, 0x29) (by decide))
      (isBalanced_iff.1 ht (0x5B, 0x5D) (by decide)) (isBalanced_iff.1 ht (0x3C, 0x3E) (by decide))
  rw [List.append_assoc, walk_append ho, walk_append hinside]
  exact hc

/-- Pieces with bars between them balance as they do by themselves. -/
theorem isBalanced_join {pieces : List Text} (h : ∀ p ∈ pieces, isBalanced p) :
    isBalanced (Text.join [0x7C] pieces) := by
  induction pieces with
  | nil => decide
  | cons p ps ih =>
    obtain ⟨hp, hps⟩ := List.forall_mem_cons.1 h
    by_cases hnil : ps = []
    · subst hnil
      exact hp
    · rw [Text.join_cons _ _ hnil]
      exact isBalanced_append (isBalanced_append hp (by decide)) (ih hps)

end Pattern

end Phrasebook
