import Mathlib.Data.List.Basic
import Phrasebook.Match

/-!
# Matching as a transaction on the context

A match only ever adds to what its context has collected, what it adds does not depend on what was
there before, and a match that fails takes back all it added.

* `Matcher.run_append` : the run of a pattern on any context is its run on a cleared one, with what
  that run collected appended.
* `Matcher.run_of_none` : a failed run leaves values, captures and mark as they were.
* `Matcher.run_stuck` : trees of the known kinds never get stuck.
* `Matcher.matchAt_transaction` : the three together, at any offset.

A sequence is the one node that can fail with some of its parts matched, so `runAll` by itself does
not roll back; `run_append` speaks of it all the same, and `restore` then finds the former values as
a front of the present ones.
-/

namespace Phrasebook

namespace Pattern

mutual

/-- Whether all nodes of a tree are of the six known kinds. -/
def isKnown : Pattern → Bool
  | .text _ | .regex _ _ | .slot _ => true
  | .sequence children => allKnown children
  | .optional child => child.isKnown
  | .choice alternatives => branchesKnown alternatives
  | .unknown _ => false

/-- Whether all trees of a list are of the known kinds. -/
def allKnown : List Pattern → Bool
  | [] => true
  | p :: rest => p.isKnown && allKnown rest

/-- Whether all branches of a choice are of the known kinds. -/
def branchesKnown : List (Mark × Pattern) → Bool
  | [] => true
  | (_, p) :: rest => p.isKnown && branchesKnown rest

end

end Pattern

namespace Context

variable {V : Type}

/-- The context with nothing collected yet, at the same place of the same attempt. -/
def clear (ctx : Context V) : Context V :=
  { depth := ctx.depth, follow := ctx.follow }

/-- The context with what another one collected added at the end. -/
def append (ctx gained : Context V) : Context V :=
  { ctx with
    values := ctx.values ++ gained.values
    captures := ctx.captures ++ gained.captures
    mark := ctx.mark ^^^ gained.mark
    offers := ctx.offers ++ gained.offers
    stuck := ctx.stuck || gained.stuck }

/-- Two contexts have collected the same values, captures and mark. -/
def SameCollected (a b : Context V) : Prop :=
  a.values = b.values ∧ a.captures = b.captures ∧ a.mark = b.mark

@[simp] theorem clear_clear (ctx : Context V) : ctx.clear.clear = ctx.clear := rfl

@[simp] theorem clear_append (ctx gained : Context V) : (ctx.append gained).clear = ctx.clear := rfl

@[simp] theorem append_clear (ctx : Context V) : ctx.append ctx.clear = ctx := by
  simp [append, clear]

theorem append_assoc (a b c : Context V) : (a.append b).append c = a.append (b.append c) := by
  simp [append, Int64.xor_assoc, Bool.or_assoc]

theorem clear_push (ctx : Context V) (siblings : List Pattern) :
    (ctx.push siblings).clear = ctx.clear.push siblings := rfl

theorem pop_append_push (ctx gained : Context V) (siblings : List Pattern) :
    ((ctx.push siblings).append gained).pop = ctx.append gained.pop := rfl

/-- Going back to a context after adding to it takes the additions away. -/
theorem restore_append (ctx gained : Context V) :
    (ctx.append gained).restore ctx = ctx.append (gained.restore ctx.clear) := by
  simp [restore, append, clear]

theorem SameCollected.trans {a b c : Context V} (h : a.SameCollected b) (h' : b.SameCollected c) :
    a.SameCollected c :=
  ⟨h.1.trans h'.1, h.2.1.trans h'.2.1, h.2.2.trans h'.2.2⟩

theorem clear_restore (ctx former : Context V) : (ctx.restore former).clear = ctx.clear := rfl

theorem restore_append_sameCollected (ctx gained : Context V) :
    ((ctx.append gained).restore ctx).SameCollected ctx := by
  simp [SameCollected, restore, append]

end Context

namespace Continuation

theorem anyUnknown_append (a b : List Continuation) :
    anyUnknown (a ++ b) = (anyUnknown a || anyUnknown b) :=
  List.any_append

mutual

theorem anyUnknown_ofPattern {p : Pattern} (hp : p.isKnown) :
    anyUnknown (ofPattern p).1 = false := by
  cases p with
  | text content => simp only [ofPattern]; split <;> rfl
  | regex source finder => rfl
  | slot slot => rfl
  | sequence children => exact anyUnknown_ofPatterns (by simpa [Pattern.isKnown] using hp)
  | optional child => exact anyUnknown_ofPattern (p := child) (by simpa [Pattern.isKnown] using hp)
  | choice alternatives => exact anyUnknown_ofBranches (by simpa [Pattern.isKnown] using hp)
  | unknown label => simp [Pattern.isKnown] at hp

theorem anyUnknown_ofPatterns {ps : List Pattern} (hp : Pattern.allKnown ps) :
    anyUnknown (ofPatterns ps).1 = false := by
  match ps with
  | [] => rfl
  | p :: rest =>
    simp only [Pattern.allKnown, Bool.and_eq_true] at hp
    have ih := anyUnknown_ofPattern hp.1
    have ih' := anyUnknown_ofPatterns hp.2
    simp only [ofPatterns, andThen]
    split
    · rw [anyUnknown_append, ih, ih']
      rfl
    · exact ih

theorem anyUnknown_ofBranches {alternatives : List (Mark × Pattern)}
    (hp : Pattern.branchesKnown alternatives) :
    anyUnknown (ofBranches alternatives).1 = false := by
  match alternatives with
  | [] => rfl
  | (mark, p) :: rest =>
    simp only [Pattern.branchesKnown, Bool.and_eq_true] at hp
    rw [ofBranches, anyUnknown_append, anyUnknown_ofPattern hp.1, anyUnknown_ofBranches hp.2]
    rfl

end

theorem anyUnknown_ofFollow {follow : List (List Pattern)} (hf : follow.all Pattern.allKnown) :
    anyUnknown (ofFollow follow) = false := by
  induction follow with
  | nil => rfl
  | cons siblings outer ih =>
    simp only [List.all_cons, Bool.and_eq_true] at hf
    have hs := anyUnknown_ofPatterns hf.1
    simp only [ofFollow]
    split
    · rw [anyUnknown_append, hs, ih hf.2]
      rfl
    · exact hs

end Continuation

namespace Matcher

variable {V : Type} (m : Matcher V) (input : Text)

/-! ### What one node does to the context -/

theorem leaveEmpty_append (slot : Slot) (pos : Nat) (ctx gained : Context V) :
    leaveEmpty slot pos (ctx.append gained) =
      ((leaveEmpty slot pos gained).1, ctx.append (leaveEmpty slot pos gained).2) := by
  unfold leaveEmpty
  split
  · simp [Context.addValue, Context.append]
  · rfl

theorem fillSlot_append (slot : Slot) (pos : Nat) (ctx : Context V) :
    m.fillSlot input slot pos ctx =
      ((m.fillSlot input slot pos ctx.clear).1,
        ctx.append (m.fillSlot input slot pos ctx.clear).2) := by
  have empty : leaveEmpty slot pos ctx =
      ((leaveEmpty slot pos ctx.clear).1, ctx.append (leaveEmpty slot pos ctx.clear).2) := by
    rw [← leaveEmpty_append, Context.append_clear]
  unfold fillSlot
  cases m.resolver with
  | none => exact empty
  | some resolve =>
    simp only
    split
    · -- the depth and what follows are all that a slot reads of its context
      have hfollow : ctx.clear.follow = ctx.follow := rfl
      have hdepth : ctx.clear.depth = ctx.depth := rfl
      rw [hfollow, hdepth]
      split
      · simp [Context.setStuck, Context.append, Context.clear]
      · split
        · simp [Context.addValue, Context.addOffers, Context.append, Context.clear]
        · rw [← leaveEmpty_append]
          simp [Context.addOffers, Context.append, Context.clear]
    · exact empty

theorem leaveEmpty_of_none {slot : Slot} {pos : Nat} {ctx : Context V}
    (h : (leaveEmpty slot pos ctx).1 = none) : (leaveEmpty slot pos ctx).2 = ctx := by
  unfold leaveEmpty at h ⊢
  split
  · simp_all
  · rfl

theorem fillSlot_of_none {slot : Slot} {pos : Nat} {ctx : Context V} :
    (m.fillSlot input slot pos ctx).1 = none →
      (m.fillSlot input slot pos ctx).2.SameCollected ctx := by
  unfold fillSlot
  cases m.resolver with
  | none =>
    intro h
    rw [leaveEmpty_of_none h]
    exact ⟨rfl, rfl, rfl⟩
  | some resolve =>
    simp only
    split
    · split
      · exact fun _ => ⟨rfl, rfl, rfl⟩
      · split
        · exact fun h => absurd h (by simp)
        · intro h
          rw [leaveEmpty_of_none h]
          exact ⟨rfl, rfl, rfl⟩
    · intro h
      rw [leaveEmpty_of_none h]
      exact ⟨rfl, rfl, rfl⟩

/-! ### What a run does to the context -/

mutual

/-- **What a run collects does not depend on what was collected before.** -/
theorem run_append (p : Pattern) (pos : Nat) (ctx : Context V) :
    m.run input p pos ctx =
      ((m.run input p pos ctx.clear).1, ctx.append (m.run input p pos ctx.clear).2) := by
  unfold run
  split
  · simp
  · cases p with
    | text content => simp
    | regex source finder =>
      simp only
      split
      · simp [Context.addCapture, Context.append, Context.clear]
      · simp
    | slot slot => exact m.fillSlot_append input slot pos ctx
    | unknown label => simp [Context.setStuck, Context.append, Context.clear]
    | choice alternatives => exact runBranches_append alternatives pos ctx
    | sequence children =>
      -- the parts that matched before one failed are dropped from either context
      simp only
      rw [runAll_append children pos ctx]
      obtain ⟨stop, gained⟩ := m.runAll input children pos ctx.clear
      cases stop with
      | some stop => rfl
      | none => simp only [Context.restore_append]
    | optional child =>
      simp only
      rw [run_append child pos ctx]
      obtain ⟨stop, gained⟩ := m.run input child pos ctx.clear
      cases stop with
      | some stop => rfl
      | none => simp only [Context.restore_append]

theorem runAll_append (ps : List Pattern) (pos : Nat) (ctx : Context V) :
    m.runAll input ps pos ctx =
      ((m.runAll input ps pos ctx.clear).1, ctx.append (m.runAll input ps pos ctx.clear).2) := by
  cases ps with
  | nil => simp [runAll]
  | cons p rest =>
    unfold runAll
    -- the rest runs after what the first part collected, and that is cleared away again
    have hclear : (m.run input p pos (ctx.clear.push rest)).2.pop.clear = ctx.clear := by
      rw [run_append p pos (ctx.clear.push rest)]
      rfl
    rw [run_append p pos (ctx.push rest), Context.clear_push]
    revert hclear
    obtain ⟨next, gained⟩ := m.run input p pos (ctx.clear.push rest)
    intro hclear
    cases next with
    | none => rfl
    | some next =>
      simp only [Context.pop_append_push]
      rw [runAll_append rest next (ctx.append gained.pop), runAll_append rest next gained.pop,
        hclear, Context.clear_append, Context.append_assoc]

theorem runBranches_append (alternatives : List (Mark × Pattern)) (pos : Nat) (ctx : Context V) :
    m.runBranches input alternatives pos ctx =
      ((m.runBranches input alternatives pos ctx.clear).1,
        ctx.append (m.runBranches input alternatives pos ctx.clear).2) := by
  match alternatives with
  | [] => simp [runBranches]
  | (mark, p) :: rest =>
    unfold runBranches
    have hclear : (m.run input p pos ctx.clear).2.clear = ctx.clear := by
      rw [run_append p pos ctx.clear]
      rfl
    rw [run_append p pos ctx]
    revert hclear
    obtain ⟨stop, gained⟩ := m.run input p pos ctx.clear
    intro hclear
    cases stop with
    | some stop => simp [Context.addMark, Context.append, Int64.xor_assoc]
    | none =>
      simp only [Context.restore_append]
      rw [runBranches_append rest pos (ctx.append (gained.restore ctx.clear)),
        runBranches_append rest pos (gained.restore ctx.clear), Context.clear_append,
        Context.append_assoc, Context.clear_restore, hclear]

end

theorem run_follow (p : Pattern) (pos : Nat) (ctx : Context V) :
    (m.run input p pos ctx).2.follow = ctx.follow := by
  rw [run_append]
  rfl

theorem run_depth (p : Pattern) (pos : Nat) (ctx : Context V) :
    (m.run input p pos ctx).2.depth = ctx.depth := by
  rw [run_append]
  rfl

theorem run_restore_sameCollected (p : Pattern) (pos : Nat) (ctx : Context V) :
    ((m.run input p pos ctx).2.restore ctx).SameCollected ctx := by
  rw [run_append]
  exact ctx.restore_append_sameCollected _

theorem runBranches_of_none {alternatives : List (Mark × Pattern)} {pos : Nat} {ctx : Context V}
    (h : (m.runBranches input alternatives pos ctx).1 = none) :
    (m.runBranches input alternatives pos ctx).2.SameCollected ctx := by
  induction alternatives generalizing ctx with
  | nil => exact ⟨rfl, rfl, rfl⟩
  | cons alternative rest ih =>
    obtain ⟨mark, p⟩ := alternative
    unfold runBranches at h ⊢
    rw [run_append] at h ⊢
    generalize m.run input p pos ctx.clear = r at h ⊢
    obtain ⟨stop, gained⟩ := r
    cases stop with
    | some stop => exact absurd h (by simp)
    | none => exact (ih h).trans (ctx.restore_append_sameCollected gained)

/-- **A failed run takes back what it collected.** -/
theorem run_of_none {p : Pattern} {pos : Nat} {ctx : Context V}
    (h : (m.run input p pos ctx).1 = none) :
    (m.run input p pos ctx).2.SameCollected ctx := by
  unfold run at h ⊢
  split
  · exact ⟨rfl, rfl, rfl⟩
  · rename_i hpos
    simp only [hpos, ↓reduceIte] at h
    cases p with
    | text content => exact ⟨rfl, rfl, rfl⟩
    | unknown label => exact ⟨rfl, rfl, rfl⟩
    | slot slot => exact m.fillSlot_of_none input h
    | choice alternatives => exact m.runBranches_of_none input h
    | regex source finder =>
      simp only at h ⊢
      split
      · simp_all
      · exact ⟨rfl, rfl, rfl⟩
    | sequence children =>
      simp only at h ⊢
      rw [runAll_append] at h ⊢
      generalize m.runAll input children pos ctx.clear = r at h ⊢
      obtain ⟨stop, gained⟩ := r
      cases stop with
      | some stop => exact absurd h (by simp)
      | none => exact ctx.restore_append_sameCollected gained
    | optional child =>
      simp only at h
      split at h <;> exact absurd h (by simp)

/-! ### Trees of the known kinds -/

theorem leaveEmpty_stuck (slot : Slot) (pos : Nat) (ctx : Context V) :
    (leaveEmpty slot pos ctx).2.stuck = ctx.stuck := by
  unfold leaveEmpty
  split <;> rfl

theorem fillSlot_stuck (slot : Slot) (pos : Nat) {ctx : Context V}
    (hf : ctx.follow.all Pattern.allKnown) :
    (m.fillSlot input slot pos ctx).2.stuck = ctx.stuck := by
  unfold fillSlot
  cases m.resolver with
  | none => exact leaveEmpty_stuck slot pos ctx
  | some resolve =>
    simp only [Continuation.anyUnknown_ofFollow hf]
    split
    · split
      · contradiction
      · split
        · rfl
        · rw [leaveEmpty_stuck]
          rfl
    · exact leaveEmpty_stuck slot pos ctx

mutual

/-- **A tree of the known kinds is always matched or refused.** -/
theorem run_stuck {p : Pattern} (hp : p.isKnown) (pos : Nat) {ctx : Context V}
    (hf : ctx.follow.all Pattern.allKnown) : (m.run input p pos ctx).2.stuck = ctx.stuck := by
  unfold run
  split
  · rfl
  · cases p with
    | text content => rfl
    | regex source finder => simp only; split <;> rfl
    | slot slot => exact m.fillSlot_stuck input slot pos hf
    | unknown label => simp [Pattern.isKnown] at hp
    | choice alternatives => exact runBranches_stuck (by simpa [Pattern.isKnown] using hp) pos hf
    | sequence children =>
      have hc : Pattern.allKnown children := by simpa [Pattern.isKnown] using hp
      have ih := runAll_stuck hc pos hf
      simp only
      split <;> simp_all [Context.restore]
    | optional child =>
      have ih := run_stuck (p := child) (by simpa [Pattern.isKnown] using hp) pos hf
      simp only
      split <;> simp_all [Context.restore]

theorem runAll_stuck {ps : List Pattern} (hp : Pattern.allKnown ps) (pos : Nat) {ctx : Context V}
    (hf : ctx.follow.all Pattern.allKnown) :
    (m.runAll input ps pos ctx).2.stuck = ctx.stuck := by
  match ps with
  | [] => rfl
  | p :: rest =>
    simp only [Pattern.allKnown, Bool.and_eq_true] at hp
    -- a slot in the first part looks at the siblings for what may follow it
    have hpush : (ctx.push rest).follow.all Pattern.allKnown := by simp [Context.push, hp.2, hf]
    have ih := run_stuck hp.1 pos hpush
    have hfollow := m.run_follow input p pos (ctx.push rest)
    unfold runAll
    generalize m.run input p pos (ctx.push rest) = r at ih hfollow ⊢
    obtain ⟨next, after⟩ := r
    replace hfollow : after.follow = rest :: ctx.follow := hfollow
    cases next with
    | none => exact ih
    | some next =>
      simp only
      rw [runAll_stuck hp.2 next (by simpa [Context.pop, hfollow] using hf)]
      exact ih

theorem runBranches_stuck {alternatives : List (Mark × Pattern)}
    (hp : Pattern.branchesKnown alternatives) (pos : Nat) {ctx : Context V}
    (hf : ctx.follow.all Pattern.allKnown) :
    (m.runBranches input alternatives pos ctx).2.stuck = ctx.stuck := by
  match alternatives with
  | [] => rfl
  | (mark, p) :: rest =>
    simp only [Pattern.branchesKnown, Bool.and_eq_true] at hp
    have ih := run_stuck hp.1 pos hf
    have hfollow := m.run_follow input p pos ctx
    unfold runBranches
    generalize m.run input p pos ctx = r at ih hfollow ⊢
    obtain ⟨stop, after⟩ := r
    replace hfollow : after.follow = ctx.follow := hfollow
    cases stop with
    | some stop => exact ih
    | none =>
      simp only
      rw [runBranches_stuck hp.2 pos (by simpa [Context.restore, hfollow] using hf)]
      exact ih

end

/-! ### Matching at an offset -/

/-- **Matching is an append-only transaction.**  Let `r` be the match on a context that has
collected nothing yet.  Where `r` fails, the match on any context fails and leaves all that was
collected as it was; where `r` succeeds, it succeeds at the same end and adds what `r` collected.
Depth and what follows are never changed, and a tree of the known kinds among such trees is never
stuck. -/
theorem matchAt_transaction (m : Matcher V) (input : Text) (p : Pattern) (offset : Int)
    (ctx : Context V) :
    let r := m.matchAt input p offset { ctx with values := [], captures := [], mark := 0 }
    let s := m.matchAt input p offset ctx
    (r.1 = none → s.1 = none ∧ s.2.values = ctx.values ∧ s.2.captures = ctx.captures ∧
      s.2.mark = ctx.mark) ∧
    (∀ stop, r.1 = some stop → s.1 = some stop ∧ s.2.values = ctx.values ++ r.2.values ∧
      s.2.captures = ctx.captures ++ r.2.captures ∧ s.2.mark = ctx.mark ^^^ r.2.mark) ∧
    s.2.depth = ctx.depth ∧ s.2.follow = ctx.follow ∧
    (p.isKnown → ctx.follow.all Pattern.allKnown → s.2.stuck = ctx.stuck) := by
  intro r s
  by_cases ho : offset < 0
  · simp [r, s, matchAt, ho]
  · have hr : r = m.run input p offset.toNat { ctx with values := [], captures := [], mark := 0 } :=
      if_neg ho
    have hs : s = m.run input p offset.toNat ctx := if_neg ho
    -- both are the run on the cleared context, with what it collected appended
    have hr' := hr.trans (m.run_append input p offset.toNat _)
    have hs' := hs.trans (m.run_append input p offset.toNat ctx)
    refine ⟨fun hn => ?_, fun stop hstop => ?_, ?_, ?_, fun hp hf => ?_⟩
    · have hn' : s.1 = none := by
        rw [hs']
        rw [hr'] at hn
        exact hn
      obtain ⟨hv, hc, hm⟩ := m.run_of_none input (hs ▸ hn')
      exact ⟨hn', hs ▸ hv, hs ▸ hc, hs ▸ hm⟩
    · rw [hr'] at hstop ⊢
      rw [hs']
      refine ⟨hstop, ?_, ?_, ?_⟩
      all_goals simp [Context.append, Context.clear]
    · rw [hs, run_depth]
    · rw [hs, run_follow]
    · rw [hs, m.run_stuck input hp _ hf]

end Matcher

end Phrasebook
