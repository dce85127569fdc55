import Phrasebook.Proofs.Match.Transaction
import Phrasebook.Proofs.Text.Utf8

/-!
# Refactoring patterns

Some rewrites of a tree should make no difference to what it matches: splicing a sequence into the
one around it, wrapping a node in a choice of one branch, writing an optional part as a choice, and
merging a choice into the choice it is a branch of.  Here they are shown to make none, at any place
of a tree: matching ends at the same position, with the same values, captures and mark, and offers
the same texts to the resolver on the way.

* `Pattern.Refactors` : the rewrites, at any place.
* `Matcher.run_withFollow` : of what follows it, a node sees nothing but the ways it can begin.
* `Pattern.Interchangeable` : trees that match alike in every context and begin in the same ways, so
  that either can stand for the other inside a tree.
* `Matcher.matchAt_eq_of_refactors` : a refactored tree matches as before.

What a node follows matters through the slots in it alone, so the ways a tree can begin have to stay
the same, in the same order.  A sequence that fails takes back what its parts collected only at its
own end, so two lists of parts are compared after going back (`Matcher.settle`).
-/

namespace Phrasebook

/-- Rewrites of a tree at one place. -/
inductive Pattern.Refactors : Pattern → Pattern → Prop where
  /-- The parts of a sequence inside a sequence take its place. -/
  | splice (before : List Pattern) {children : List Pattern} (after : List Pattern)
      (hne : children ≠ []) :
      Refactors (.sequence (before ++ .sequence children :: after))
        (.sequence (before ++ (children ++ after)))
  /-- A node becomes a choice of one branch. -/
  | wrap (p : Pattern) : Refactors p (.choice [(0, p)])
  /-- An optional part becomes a choice between it and nothing. -/
  | unfoldOptional (child : Pattern) :
      Refactors (.optional child) (.choice [(0, child), (0, .text [])])
  /-- The branches of a choice that is a branch itself take its place, with both marks combined. -/
  | merge (before : List (Mark × Pattern)) (mark : Mark) (inner after : List (Mark × Pattern)) :
      Refactors (.choice (before ++ (mark, .choice inner) :: after))
        (.choice (before ++ (inner.map (fun branch => (branch.1 ^^^ mark, branch.2)) ++ after)))
  /-- Inside a part of a sequence. -/
  | inSequence (before after : List Pattern) {p q : Pattern} (h : Refactors p q) :
      Refactors (.sequence (before ++ p :: after)) (.sequence (before ++ q :: after))
  /-- Inside an optional part. -/
  | inOptional {p q : Pattern} (h : Refactors p q) : Refactors (.optional p) (.optional q)
  /-- Inside a branch of a choice. -/
  | inBranch (before : List (Mark × Pattern)) (mark : Mark) (after : List (Mark × Pattern))
      {p q : Pattern} (h : Refactors p q) :
      Refactors (.choice (before ++ (mark, p) :: after)) (.choice (before ++ (mark, q) :: after))

theorem Piece.ofText_nil : Piece.ofText [] = [] := by
  rw [Piece.ofText, Text.chars, Text.frontList_nil]
  rfl

/-! ### The ways to begin -/

namespace Continuation

theorem andThen_assoc (a b c : List Continuation × Bool) :
    andThen (andThen a b) c = andThen a (andThen b c) := by
  unfold andThen
  split_ifs <;> simp_all

theorem ofPatterns_append (ps qs : List Pattern) :
    ofPatterns (ps ++ qs) = andThen (ofPatterns ps) (ofPatterns qs) := by
  induction ps with
  | nil => rfl
  | cons p ps ih => rw [List.cons_append, ofPatterns, ofPatterns, ih, andThen_assoc]

/-- Two frames, one right inside the other, begin as one does. -/
theorem ofFollow_append (ps qs : List Pattern) (outer : List (List Pattern)) :
    ofFollow ((ps ++ qs) :: outer) = ofFollow (ps :: qs :: outer) := by
  simp only [ofFollow, ofPatterns_append, andThen]
  split_ifs <;> simp_all

theorem ofBranches_append (as bs : List (Mark × Pattern)) :
    ofBranches (as ++ bs) =
      ((ofBranches as).1 ++ (ofBranches bs).1, (ofBranches as).2 || (ofBranches bs).2) := by
  induction as with
  | nil => rfl
  | cons a as ih =>
    rw [List.cons_append, ofBranches, ofBranches, ih, List.append_assoc, Bool.or_assoc]

/-- Marks have no part in how branches begin. -/
theorem ofBranches_map (f : Mark → Mark) (branches : List (Mark × Pattern)) :
    ofBranches (branches.map fun branch => (f branch.1, branch.2)) = ofBranches branches := by
  induction branches with
  | nil => rfl
  | cons branch rest ih => rw [List.map_cons, ofBranches, ofBranches, ih]

end Continuation

namespace Context

variable {V : Type}

/-- The context with something else to follow. -/
def withFollow (ctx : Context V) (follow : List (List Pattern)) : Context V :=
  { ctx with follow := follow }

theorem push_withFollow (ctx : Context V) (follow : List (List Pattern)) (siblings : List Pattern) :
    (ctx.withFollow follow).push siblings = (ctx.push siblings).withFollow (siblings :: follow) :=
  rfl

theorem pop_eq_withFollow {ctx : Context V} {siblings : List Pattern} {outer : List (List Pattern)}
    (h : ctx.follow = siblings :: outer) : ctx.pop = ctx.withFollow outer := by
  rw [pop, h]
  rfl

theorem restore_self (ctx : Context V) : ctx.restore ctx = ctx := by
  simp [restore]

theorem restore_of_sameCollected {ctx former : Context V} (h : ctx.SameCollected former) :
    ctx.restore former = ctx := by
  obtain ⟨hvalues, hcaptures, hmark⟩ := h
  simp [restore, ← hvalues, ← hcaptures, ← hmark]

/-- Going back looks at nothing but what was collected. -/
theorem restore_congr (ctx : Context V) {a b : Context V} (h : a.SameCollected b) :
    ctx.restore a = ctx.restore b := by
  obtain ⟨hvalues, hcaptures, hmark⟩ := h
  rw [restore, restore, hvalues, hcaptures, hmark]

theorem addMark_addMark (ctx : Context V) (a b : Mark) :
    (ctx.addMark a).addMark b = ctx.addMark (a ^^^ b) := by
  simp [addMark, Int64.xor_assoc]

theorem addMark_zero (ctx : Context V) : ctx.addMark 0 = ctx := by
  simp [addMark]

/-- A context has collected no more values and captures than another. -/
def Within (former ctx : Context V) : Prop :=
  former.values.length ≤ ctx.values.length ∧ former.captures.length ≤ ctx.captures.length

/-- Going back by two steps is going back at once. -/
theorem restore_restore {ctx middle former : Context V} (h : former.Within middle) :
    (ctx.restore middle).restore former = ctx.restore former := by
  simp [restore, List.take_take, Nat.min_eq_left h.1, Nat.min_eq_left h.2]

end Context

namespace Matcher

variable {V : Type} (m : Matcher V) (input : Text)

theorem within_run {former ctx : Context V} (h : former.Within ctx) (p : Pattern) (pos : Nat) :
    former.Within (m.run input p pos ctx).2 := by
  rw [run_append]
  obtain ⟨hvalues, hcaptures⟩ := h
  constructor
  · simp only [Context.append, List.length_append]
    omega
  · simp only [Context.append, List.length_append]
    omega

/-! ### What a node sees of what follows it -/

theorem leaveEmpty_withFollow (slot : Slot) (pos : Nat) (ctx : Context V)
    (follow : List (List Pattern)) :
    leaveEmpty slot pos (ctx.withFollow follow) =
      ((leaveEmpty slot pos ctx).1, (leaveEmpty slot pos ctx).2.withFollow follow) := by
  unfold leaveEmpty
  split <;> rfl

theorem fillSlot_withFollow (slot : Slot) (pos : Nat) {ctx : Context V}
    {follow : List (List Pattern)}
    (hunknown : Continuation.anyUnknown (Continuation.ofFollow ctx.follow) =
      Continuation.anyUnknown (Continuation.ofFollow follow))
    (hcontinues : ∀ stop,
      Continuation.continues m.caseSensitive input stop (Continuation.ofFollow ctx.follow) =
        Continuation.continues m.caseSensitive input stop (Continuation.ofFollow follow)) :
    m.fillSlot input slot pos (ctx.withFollow follow) =
      ((m.fillSlot input slot pos ctx).1,
        (m.fillSlot input slot pos ctx).2.withFollow follow) := by
  unfold fillSlot
  cases m.resolver with
  | none => exact leaveEmpty_withFollow slot pos ctx follow
  | some resolve =>
    have hfollow : (ctx.withFollow follow).follow = follow := rfl
    have hdepth : (ctx.withFollow follow).depth = ctx.depth := rfl
    simp only [hfollow, hdepth, hunknown, hcontinues]
    split
    · split
      · rfl
      · generalize offerEach resolve _ _ _ _ = offered
        obtain ⟨offers, accepted⟩ := offered
        cases accepted with
        | some filled => rfl
        | none => exact leaveEmpty_withFollow slot pos (ctx.addOffers offers) follow
    · exact leaveEmpty_withFollow slot pos ctx follow

mutual

/-- **Of what follows it, a node sees nothing but the ways it can begin.** -/
theorem run_withFollow (p : Pattern) (pos : Nat) {ctx : Context V} {follow : List (List Pattern)}
    (h : Continuation.ofFollow ctx.follow = Continuation.ofFollow follow) :
    m.run input p pos (ctx.withFollow follow) =
      ((m.run input p pos ctx).1, (m.run input p pos ctx).2.withFollow follow) := by
  unfold run
  split
  · rfl
  · cases p with
    | text content => rfl
    | regex source finder =>
      simp only
      split <;> rfl
    | slot slot => exact m.fillSlot_withFollow input slot pos (by rw [h]) fun _ => by rw [h]
    | unknown label => rfl
    | choice alternatives => exact runBranches_withFollow alternatives pos h
    | sequence children =>
      simp only
      rw [runAll_withFollow children pos h]
      obtain ⟨stop, after⟩ := m.runAll input children pos ctx
      cases stop <;> rfl
    | optional child =>
      simp only
      rw [run_withFollow child pos h]
      obtain ⟨stop, after⟩ := m.run input child pos ctx
      cases stop <;> rfl

theorem runAll_withFollow (ps : List Pattern) (pos : Nat) {ctx : Context V}
    {follow : List (List Pattern)}
    (h : Continuation.ofFollow ctx.follow = Continuation.ofFollow follow) :
    m.runAll input ps pos (ctx.withFollow follow) =
      ((m.runAll input ps pos ctx).1, (m.runAll input ps pos ctx).2.withFollow follow) := by
  match ps with
  | [] => rfl
  | p :: rest =>
    -- the siblings come in front of what follows on either side
    have hpush : Continuation.ofFollow (ctx.push rest).follow =
        Continuation.ofFollow (rest :: follow) := by
      change Continuation.ofFollow (rest :: ctx.follow) = _
      rw [Continuation.ofFollow, Continuation.ofFollow, h]
    have hfollow := m.run_follow input p pos (ctx.push rest)
    rw [runAll, runAll, Context.push_withFollow, run_withFollow p pos hpush]
    generalize m.run input p pos (ctx.push rest) = r at hfollow ⊢
    obtain ⟨next, after⟩ := r
    replace hfollow : after.follow = rest :: ctx.follow := hfollow
    cases next with
    | none => rfl
    | some next =>
      have hpop : after.pop.follow = ctx.follow := by rw [Context.pop, hfollow, List.tail_cons]
      exact runAll_withFollow rest next (hpop ▸ h)

theorem runBranches_withFollow (alternatives : List (Mark × Pattern)) (pos : Nat)
    {ctx : Context V} {follow : List (List Pattern)}
    (h : Continuation.ofFollow ctx.follow = Continuation.ofFollow follow) :
    m.runBranches input alternatives pos (ctx.withFollow follow) =
      ((m.runBranches input alternatives pos ctx).1,
        (m.runBranches input alternatives pos ctx).2.withFollow follow) := by
  match alternatives with
  | [] => rfl
  | (mark, p) :: rest =>
    have hfollow := m.run_follow input p pos ctx
    rw [runBranches, runBranches, run_withFollow p pos h]
    generalize m.run input p pos ctx = r at hfollow ⊢
    obtain ⟨stop, after⟩ := r
    replace hfollow : after.follow = ctx.follow := hfollow
    cases stop with
    | some stop => rfl
    | none =>
      have hnext : Continuation.ofFollow (after.restore ctx).follow =
          Continuation.ofFollow follow := by
        rw [← h, ← hfollow]
        rfl
      exact runBranches_withFollow rest pos hnext

end

/-! ### Sequences -/

/-- What a sequence makes of the run of its parts: if they fail, it goes back. -/
def settle (former : Context V) : Step V → Step V
  | (some stop, after) => (some stop, after)
  | (none, after) => (none, after.restore former)

variable {input} {pos : Nat} {ctx : Context V}

variable {m} in
theorem run_of_lt (h : input.length < pos) (p : Pattern) :
    m.run input p pos ctx = (none, ctx) := by
  rw [run.eq_def, if_pos h]

variable {m} in
theorem runAll_of_lt (h : input.length < pos) {ps : List Pattern} (hne : ps ≠ []) :
    m.runAll input ps pos ctx = (none, ctx) := by
  match ps with
  | [] => exact absurd rfl hne
  | p :: rest =>
    rw [runAll, run_of_lt h]
    rfl

variable {m} in
theorem run_sequence {ps : List Pattern} (h : ps ≠ [] ∨ ¬ input.length < pos) :
    m.run input (.sequence ps) pos ctx = settle ctx (m.runAll input ps pos ctx) := by
  rw [run]
  by_cases hpos : input.length < pos
  · rw [if_pos hpos, runAll_of_lt hpos (h.resolve_right (not_not_intro hpos)), settle,
      Context.restore_self]
  · rw [if_neg hpos]
    rfl

/-- The parts of two lists are matched one list after the other, with the second following the
first. -/
theorem runAll_concat (ps qs : List Pattern) (pos : Nat) (ctx : Context V) :
    m.runAll input (ps ++ qs) pos ctx =
      match m.runAll input ps pos (ctx.push qs) with
      | (some next, after) => m.runAll input qs next after.pop
      | (none, after) => (none, after.pop) := by
  induction ps generalizing pos ctx with
  | nil => rfl
  | cons p ps ih =>
    have hpush : Continuation.ofFollow ((ctx.push qs).push ps).follow =
        Continuation.ofFollow ((ps ++ qs) :: ctx.follow) :=
      (Continuation.ofFollow_append ps qs ctx.follow).symm
    have hfollow := m.run_follow input p pos ((ctx.push qs).push ps)
    have hsame : ctx.push (ps ++ qs) =
        ((ctx.push qs).push ps).withFollow ((ps ++ qs) :: ctx.follow) := rfl
    rw [List.cons_append, runAll, runAll, hsame, m.run_withFollow input p pos hpush]
    generalize m.run input p pos ((ctx.push qs).push ps) = r at hfollow ⊢
    obtain ⟨next, after⟩ := r
    replace hfollow : after.follow = ps :: qs :: ctx.follow := hfollow
    have hinner := Context.pop_eq_withFollow hfollow
    cases next with
    | none =>
      simp only [hinner]
      rfl
    | some next =>
      simp only [hinner]
      exact ih next (after.withFollow ctx.follow)

/-! ### Choices -/

variable {m} in
theorem runBranches_of_lt (h : input.length < pos) (alternatives : List (Mark × Pattern)) :
    m.runBranches input alternatives pos ctx = (none, ctx) := by
  induction alternatives with
  | nil => rfl
  | cons branch rest ih =>
    rw [runBranches, run_of_lt h]
    simp only [Context.restore_self]
    exact ih

variable {m} in
theorem run_choice (alternatives : List (Mark × Pattern)) :
    m.run input (.choice alternatives) pos ctx = m.runBranches input alternatives pos ctx := by
  rw [run]
  split_ifs with hpos
  · rw [runBranches_of_lt hpos]
  · rfl

/-- Branches that all have one more mark, and others after them. -/
theorem runBranches_map_append (mark : Mark) (inner rest : List (Mark × Pattern)) (pos : Nat)
    (ctx : Context V) :
    m.runBranches input (inner.map (fun branch => (branch.1 ^^^ mark, branch.2)) ++ rest) pos ctx =
      match m.runBranches input inner pos ctx with
      | (some stop, after) => (some stop, after.addMark mark)
      | (none, after) => m.runBranches input rest pos (after.restore ctx) := by
  induction inner generalizing ctx with
  | nil => simp only [runBranches, List.map_nil, List.nil_append, Context.restore_self]
  | cons branch inner ih =>
    obtain ⟨mark', p⟩ := branch
    have hsame := m.run_restore_sameCollected input p pos ctx
    rw [List.map_cons, List.cons_append, runBranches, runBranches]
    generalize m.run input p pos ctx = r at hsame ⊢
    obtain ⟨stop, after⟩ := r
    cases stop with
    | some stop => simp only [Context.addMark_addMark]
    | none =>
      simp only [ih (after.restore ctx), Context.restore_congr _ hsame]

end Matcher

/-- Two lists of parts that match alike, once a failure is settled, and begin in the same ways. -/
structure Pattern.SequencesAlike (ps qs : List Pattern) : Prop where
  /-- They begin in the same ways. -/
  ways : Continuation.ofPatterns ps = Continuation.ofPatterns qs
  /-- They match alike. -/
  run : ∀ {V : Type} (m : Matcher V) (input : Text) (pos : Nat) (ctx former : Context V),
    former.Within ctx → Matcher.settle former (m.runAll input ps pos ctx) =
      Matcher.settle former (m.runAll input qs pos ctx)

/-- Two lists of branches that match alike and begin in the same ways. -/
structure Pattern.BranchesAlike (as bs : List (Mark × Pattern)) : Prop where
  /-- They begin in the same ways. -/
  ways : Continuation.ofBranches as = Continuation.ofBranches bs
  /-- They match alike. -/
  run : ∀ {V : Type} (m : Matcher V) (input : Text) (pos : Nat) (ctx : Context V),
    m.runBranches input as pos ctx = m.runBranches input bs pos ctx

/-- Two trees that match alike in every context and begin in the same ways. -/
structure Pattern.Interchangeable (p q : Pattern) : Prop where
  /-- They begin in the same ways. -/
  ways : Continuation.ofPattern p = Continuation.ofPattern q
  /-- They match alike. -/
  run : ∀ {V : Type} (m : Matcher V) (input : Text) (pos : Nat) (ctx : Context V),
    m.run input p pos ctx = m.run input q pos ctx

namespace Pattern

open Matcher

namespace SequencesAlike

/-- A part in front sees no difference in the ways the others begin. -/
theorem cons (p : Pattern) {ps qs : List Pattern} (h : SequencesAlike ps qs) :
    SequencesAlike (p :: ps) (p :: qs) := by
  refine ⟨by rw [Continuation.ofPatterns, Continuation.ofPatterns, h.ways], ?_⟩
  intro V m input pos ctx former hwithin
  have hpush : Continuation.ofFollow (ctx.push ps).follow =
      Continuation.ofFollow (qs :: ctx.follow) := by
    change Continuation.ofFollow (ps :: ctx.follow) = _
    rw [Continuation.ofFollow, Continuation.ofFollow, h.ways]
  have hsame : ctx.push qs = (ctx.push ps).withFollow (qs :: ctx.follow) := rfl
  have hfollow := m.run_follow input p pos (ctx.push ps)
  have hpushed : former.Within (ctx.push ps) := hwithin
  have hnext := m.within_run input hpushed p pos
  rw [runAll, runAll, hsame, m.run_withFollow input p pos hpush]
  generalize m.run input p pos (ctx.push ps) = r at hfollow hnext ⊢
  obtain ⟨next, after⟩ := r
  have hpop : after.pop = after.withFollow ctx.follow := Context.pop_eq_withFollow hfollow
  cases next with
  | none =>
    simp only [hpop]
    rfl
  | some next =>
    simp only [hpop]
    exact h.run m input next (after.withFollow ctx.follow) former hnext

theorem append (before : List Pattern) {ps qs : List Pattern} (h : SequencesAlike ps qs) :
    SequencesAlike (before ++ ps) (before ++ qs) := by
  induction before with
  | nil => exact h
  | cons p before ih => exact ih.cons p

theorem head {p q : Pattern} (h : Interchangeable p q) (rest : List Pattern) :
    SequencesAlike (p :: rest) (q :: rest) := by
  refine ⟨by rw [Continuation.ofPatterns, Continuation.ofPatterns, h.ways], ?_⟩
  intro V m input pos ctx former _
  rw [runAll, runAll, h.run]

/-- **A sequence can be spliced into the one around it.** -/
theorem splice {children : List Pattern} (hne : children ≠ []) (rest : List Pattern) :
    SequencesAlike (.sequence children :: rest) (children ++ rest) := by
  refine ⟨?_, ?_⟩
  · rw [Continuation.ofPatterns, Continuation.ofPattern, Continuation.ofPatterns_append]
  · intro V m input pos ctx former hwithin
    rw [runAll, run_sequence (.inl hne), m.runAll_concat children rest pos ctx]
    obtain ⟨next, after⟩ := m.runAll input children pos (ctx.push rest)
    cases next with
    | some next => rfl
    | none =>
      -- the inner sequence goes back before the outer one does
      have hback : (after.restore (ctx.push rest)).restore former = after.restore former :=
        Context.restore_restore hwithin
      exact congrArg (fun ctx => (none, Context.pop ctx)) hback

end SequencesAlike

namespace BranchesAlike

theorem cons (mark : Mark) (p : Pattern) {as bs : List (Mark × Pattern)} (h : BranchesAlike as bs) :
    BranchesAlike ((mark, p) :: as) ((mark, p) :: bs) := by
  refine ⟨by rw [Continuation.ofBranches, Continuation.ofBranches, h.ways], ?_⟩
  intro V m input pos ctx
  rw [runBranches, runBranches]
  obtain ⟨stop, after⟩ := m.run input p pos ctx
  cases stop with
  | some stop => rfl
  | none => exact h.run m input pos (after.restore ctx)

theorem append (before : List (Mark × Pattern)) {as bs : List (Mark × Pattern)}
    (h : BranchesAlike as bs) : BranchesAlike (before ++ as) (before ++ bs) := by
  induction before with
  | nil => exact h
  | cons branch before ih => exact ih.cons branch.1 branch.2

theorem head (mark : Mark) {p q : Pattern} (h : Interchangeable p q)
    (rest : List (Mark × Pattern)) : BranchesAlike ((mark, p) :: rest) ((mark, q) :: rest) := by
  refine ⟨by rw [Continuation.ofBranches, Continuation.ofBranches, h.ways], ?_⟩
  intro V m input pos ctx
  rw [runBranches, runBranches, h.run]

/-- **A choice can be merged into the one it is a branch of**, with the marks combined. -/
theorem merge (mark : Mark) (inner rest : List (Mark × Pattern)) :
    BranchesAlike ((mark, .choice inner) :: rest)
      (inner.map (fun branch => (branch.1 ^^^ mark, branch.2)) ++ rest) := by
  refine ⟨?_, ?_⟩
  · rw [Continuation.ofBranches_append, Continuation.ofBranches_map (· ^^^ mark),
      Continuation.ofBranches, Continuation.ofPattern]
  · intro V m input pos ctx
    rw [runBranches, run_choice]
    exact (m.runBranches_map_append mark inner rest pos ctx).symm

end BranchesAlike

namespace Interchangeable

theorem sequence {ps qs : List Pattern} (h : SequencesAlike ps qs) (hne : ps ≠ [])
    (hne' : qs ≠ []) : Interchangeable (.sequence ps) (.sequence qs) := by
  refine ⟨by rw [Continuation.ofPattern, Continuation.ofPattern, h.ways], ?_⟩
  intro V m input pos ctx
  rw [run_sequence (.inl hne), run_sequence (.inl hne')]
  exact h.run m input pos ctx ctx ⟨Nat.le_refl _, Nat.le_refl _⟩

theorem choice {as bs : List (Mark × Pattern)} (h : BranchesAlike as bs) :
    Interchangeable (.choice as) (.choice bs) := by
  refine ⟨by rw [Continuation.ofPattern, Continuation.ofPattern, h.ways], ?_⟩
  intro V m input pos ctx
  rw [run_choice, run_choice, h.run]

theorem optional {p q : Pattern} (h : Interchangeable p q) :
    Interchangeable (.optional p) (.optional q) := by
  refine ⟨by rw [Continuation.ofPattern, Continuation.ofPattern, h.ways], ?_⟩
  intro V m input pos ctx
  rw [Matcher.run, Matcher.run, h.run]

/-- **A node can be wrapped in a choice** of one branch without a mark. -/
theorem wrap (p : Pattern) : Interchangeable p (.choice [(0, p)]) := by
  refine ⟨?_, ?_⟩
  · simp [Continuation.ofPattern, Continuation.ofBranches]
  · intro V m input pos ctx
    -- a branch that failed has taken back what it collected, so there is nothing to go back to
    have hnone : (m.run input p pos ctx).1 = none → (m.run input p pos ctx).2.SameCollected ctx :=
      m.run_of_none input
    rw [run_choice, runBranches]
    generalize m.run input p pos ctx = r at hnone ⊢
    obtain ⟨stop, after⟩ := r
    cases stop with
    | some stop => simp only [Context.addMark_zero]
    | none => simp only [Context.restore_of_sameCollected (hnone rfl), runBranches]

/-- **An optional part can be written as a choice** between it and nothing. -/
theorem unfoldOptional (child : Pattern) :
    Interchangeable (.optional child) (.choice [(0, child), (0, .text [])]) := by
  refine ⟨?_, ?_⟩
  · simp [Continuation.ofPattern, Continuation.ofBranches, Piece.ofText_nil, Piece.allBlank]
  · intro V m input pos ctx
    by_cases hpos : input.length < pos
    · rw [run_of_lt hpos, run_of_lt hpos]
    · rw [run_choice, runBranches, Matcher.run, if_neg hpos]
      obtain ⟨stop, after⟩ := m.run input child pos ctx
      cases stop with
      | some stop => simp only [Context.addMark_zero]
      | none =>
        have hnothing : m.run input (.text []) pos (after.restore ctx) =
            (some pos, after.restore ctx) := by
          rw [Matcher.run, if_neg hpos, Piece.ofText_nil, Piece.matchAt]
        simp only [runBranches, hnothing, Context.addMark_zero]

end Interchangeable

/-- Refactored trees are interchangeable. -/
theorem interchangeable_of_refactors {p q : Pattern} (h : Refactors p q) : Interchangeable p q := by
  induction h with
  | splice before after hne =>
    exact .sequence ((SequencesAlike.splice hne after).append before) (by simp) (by simp [hne])
  | wrap p => exact .wrap p
  | unfoldOptional child => exact .unfoldOptional child
  | merge before mark inner after =>
    exact .choice ((BranchesAlike.merge mark inner after).append before)
  | inSequence before after _ ih =>
    exact .sequence ((SequencesAlike.head ih after).append before) (by simp) (by simp)
  | inOptional _ ih => exact ih.optional
  | inBranch before mark after _ ih =>
    exact .choice ((BranchesAlike.head mark ih after).append before)

end Pattern

/-- **Refactoring makes no difference to matching.**  Whatever the input, the offset, the context,
the resolver and the letter case that counts, a refactored tree ends where it did before, leaves the
same context and has made the same offers. -/
theorem Matcher.matchAt_eq_of_refactors {p q : Pattern} (h : Pattern.Refactors p q) {V : Type}
    (m : Matcher V) (input : Text) (offset : Int) (ctx : Context V) :
    m.matchAt input p offset ctx = m.matchAt input q offset ctx := by
  unfold Matcher.matchAt
  split_ifs
  · rfl
  · exact (Pattern.interchangeable_of_refactors h).run m input offset.toNat ctx

/-- A slot that takes any text. -/
def Pattern.blankSlot : Pattern := .slot ⟨[], false, .both, .none, []⟩

/-- Two slots in an optional sequence, with a sequence of its own around the second. -/
def Pattern.nestedPair : Pattern :=
  .optional (.sequence ([blankSlot] ++ .sequence [.text (Text.ofString " or "), blankSlot] ::
    [.text (Text.ofString "!")]))

/-- The same without the inner sequence. -/
def Pattern.flatPair : Pattern :=
  .optional (.sequence ([blankSlot] ++ ([.text (Text.ofString " or "), blankSlot] ++
    [.text (Text.ofString "!")])))

/-- What follows the first slot stands in one frame in place of two, and it is filled alike. -/
theorem Matcher.matchAt_eq_of_refactors_pair :
    Pattern.Refactors Pattern.nestedPair Pattern.flatPair ∧
    (Matcher.matchAt (V := Text) ⟨some fun text _ => some ⟨0, text⟩, true⟩
      (Text.ofString "tea or milk!") Pattern.nestedPair 0 {}).1 = some 12 ∧
    Matcher.matchAt (V := Text) ⟨some fun text _ => some ⟨0, text⟩, true⟩
      (Text.ofString "tea or milk!") Pattern.nestedPair 0 {} =
    Matcher.matchAt (V := Text) ⟨some fun text _ => some ⟨0, text⟩, true⟩
      (Text.ofString "tea or milk!") Pattern.flatPair 0 {} := by
  have h : Pattern.Refactors Pattern.nestedPair Pattern.flatPair :=
    .inOptional (.splice _ _ (by simp))
  exact ⟨h, by decide +kernel, Matcher.matchAt_eq_of_refactors h _ _ _ _⟩

end Phrasebook
