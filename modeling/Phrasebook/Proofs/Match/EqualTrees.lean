import Mathlib.Data.List.Forall2
import Phrasebook.Proofs.Match.Refactoring
import Phrasebook.Proofs.Pattern.Equality
import Phrasebook.Proofs.Pattern.Nodes
import Phrasebook.Proofs.Registry.Runs

/-!
# Trees that compare as equal

The comparison of trees looks at the sources of regular expressions and at the names of types, and
not at how types were spelled.  Among trees compiled with one registry nothing is lost by that: what
it leaves out, matching does not see either.

* `Pattern.unspelled` : a tree without the spellings of its types.
* `Pattern.same_iff_unspelled_eq` : compiled trees are the same exactly when they are equal but for
  spellings.
* `Pattern.interchangeable_unspelled` : a tree matches as it does without spellings.
* `Matcher.equivalence_equal_and_matchAt_eq` : **so the comparison is an equivalence, and trees that
  are the same match alike.**
-/

namespace Phrasebook

namespace Pattern

/-! ### Trees without spellings -/

mutual

/-- A tree without the spellings of its types. -/
def unspelled : Pattern → Pattern
  | .text content => .text content
  | .sequence children => .sequence (unspelledAll children)
  | .optional child => .optional child.unspelled
  | .choice alternatives => .choice (unspelledBranches alternatives)
  | .regex source finder => .regex source finder
  | .slot s => .slot { s with spellings := [] }
  | .unknown label => .unknown label

/-- Trees without the spellings of their types. -/
def unspelledAll : List Pattern → List Pattern
  | [] => []
  | p :: rest => p.unspelled :: unspelledAll rest

/-- Branches without the spellings of their types. -/
def unspelledBranches : List (Mark × Pattern) → List (Mark × Pattern)
  | [] => []
  | (mark, p) :: rest => (mark, p.unspelled) :: unspelledBranches rest

end

/-! ### What is the same but for spellings -/

section Bound

variable {dialect : Regex.Dialect} {registry : Registry}

/-- Lists of the registry's references are the same only if they are equal. -/
theorem eq_of_sameRefs (hr : registry.Reachable dialect) {refs refs' : List TypeRef}
    (h : ∀ ref ∈ refs, ∃ name, registry.typeRef? name = some ref)
    (h' : ∀ ref ∈ refs', ∃ name, registry.typeRef? name = some ref) (hsame : sameRefs refs refs') :
    refs = refs' := by
  fun_induction sameRefs refs refs' with
  | case1 => rfl
  | case2 ref refs ref' refs' ih =>
    obtain ⟨⟨name, hname⟩, hrefs⟩ := List.forall_mem_cons.1 h
    obtain ⟨⟨name', hname'⟩, hrefs'⟩ := List.forall_mem_cons.1 h'
    rw [Bool.and_eq_true] at hsame
    rw [Registry.eq_of_same hr hname hname' hsame.1, ih hrefs hrefs' hsame.2]
  | case3 => simp at hsame

theorem sameRefs_refl (refs : List TypeRef) : sameRefs refs refs := by
  induction refs with
  | nil => rfl
  | cons ref refs ih => simp [sameRefs, TypeRef.same_refl, ih]

/-- One source is compiled to one finder. -/
theorem same_regex_iff {source source' : Text} {finder finder' : Option Regex.Finder}
    (h : Bound dialect registry (.regex source finder))
    (h' : Bound dialect registry (.regex source' finder')) :
    Same (.regex source finder) (.regex source' finder') ↔
      Pattern.regex source finder = .regex source' finder' := by
  obtain ⟨find, rfl, hfind⟩ := h
  obtain ⟨find', rfl, hfind'⟩ := h'
  rw [same_regex]
  constructor
  · rintro ⟨f, hf⟩
    obtain ⟨rfl, -⟩ := Pattern.regex.inj hf
    rw [Except.ok.inj (hfind.symm.trans hfind')]
  · intro heq
    exact ⟨_, heq⟩

theorem same_slot_iff (hr : registry.Reachable dialect) {s s' : Slot}
    (h : Bound dialect registry (.slot s)) (h' : Bound dialect registry (.slot s')) :
    Same (.slot s) (.slot s') ↔
      ({ s with spellings := [] } : Slot) = { s' with spellings := [] } := by
  have hslot : Same (.slot s) (.slot s') ↔ sameSlot s s' := by
    rw [same_slot]
    simp
  rw [hslot]
  constructor
  · intro hsame
    simp only [sameSlot, Bool.and_eq_true, beq_iff_eq] at hsame
    obtain ⟨⟨⟨hnullable, htense⟩, hacceptance⟩, hrefs⟩ := hsame
    rw [eq_of_sameRefs hr h h' hrefs, hnullable, hacceptance, htense]
  · intro heq
    simp only [Slot.mk.injEq, and_true] at heq
    obtain ⟨htypes, hnullable, hacceptance, htense⟩ := heq
    simp [sameSlot, htypes, hnullable, hacceptance, htense, sameRefs_refl]

mutual

/-- **Bound trees are the same exactly when they are equal but for spellings.** -/
theorem same_iff_unspelled_eq (hr : registry.Reachable dialect) {a b : Pattern}
    (ha : AllNodes (Bound dialect registry) a) (hb : AllNodes (Bound dialect registry) b) :
    Same a b ↔ a.unspelled = b.unspelled := by
  cases b with
  | text content =>
    cases a with
    | text content' => rw [same_text, unspelled, unspelled]
    | _ => exact iff_of_false (not_same_of_eq rfl) (by simp [unspelled])
  | sequence bs =>
    cases a with
    | sequence as =>
      rw [same_sequence, unspelled, unspelled, Pattern.sequence.injEq]
      exact sameAll_iff_unspelled_eq hr ha.child hb.child
    | _ => exact iff_of_false (not_same_of_eq rfl) (by simp [unspelled])
  | optional b =>
    cases a with
    | optional a =>
      rw [same_optional, unspelled, unspelled, Pattern.optional.injEq]
      exact same_iff_unspelled_eq hr ha.inside hb.inside
    | _ => exact iff_of_false (not_same_of_eq rfl) (by simp [unspelled])
  | choice bs =>
    cases a with
    | choice as =>
      rw [same_choice, unspelled, unspelled, Pattern.choice.injEq]
      exact sameBranches_iff_unspelled_eq hr ha.branch hb.branch
    | _ => exact iff_of_false (not_same_of_eq rfl) (by simp [unspelled])
  | regex source finder =>
    cases a with
    | regex source' finder' =>
      rw [unspelled, unspelled]
      exact same_regex_iff (ha _ (.root _)) (hb _ (.root _))
    | _ => exact iff_of_false (not_same_of_eq rfl) (by simp [unspelled])
  | slot s =>
    cases a with
    | slot s' =>
      rw [unspelled, unspelled, Pattern.slot.injEq]
      exact same_slot_iff hr (ha _ (.root _)) (hb _ (.root _))
    | _ => exact iff_of_false (not_same_of_eq rfl) (by simp [unspelled])
  | unknown label => exact (hb _ (.root _)).elim

theorem sameAll_iff_unspelled_eq (hr : registry.Reachable dialect) {as bs : List Pattern}
    (ha : ∀ p ∈ as, AllNodes (Bound dialect registry) p)
    (hb : ∀ p ∈ bs, AllNodes (Bound dialect registry) p) :
    List.Forall₂ Same as bs ↔ unspelledAll as = unspelledAll bs := by
  match as, bs with
  | [], [] => simp [unspelledAll]
  | [], _ :: _ => simp [unspelledAll]
  | _ :: _, [] => simp [unspelledAll]
  | a :: as, b :: bs =>
    obtain ⟨ha, has⟩ := List.forall_mem_cons.1 ha
    obtain ⟨hb, hbs⟩ := List.forall_mem_cons.1 hb
    rw [List.forall₂_cons, unspelledAll, unspelledAll, List.cons.injEq,
      same_iff_unspelled_eq hr ha hb, sameAll_iff_unspelled_eq hr has hbs]

theorem sameBranches_iff_unspelled_eq (hr : registry.Reachable dialect)
    {as bs : List (Mark × Pattern)} (ha : ∀ branch ∈ as, AllNodes (Bound dialect registry) branch.2)
    (hb : ∀ branch ∈ bs, AllNodes (Bound dialect registry) branch.2) :
    List.Forall₂ SameBranch as bs ↔ unspelledBranches as = unspelledBranches bs := by
  match as, bs with
  | [], [] => simp [unspelledBranches]
  | [], _ :: _ => simp [unspelledBranches]
  | _ :: _, [] => simp [unspelledBranches]
  | (mark, a) :: as, (mark', b) :: bs =>
    obtain ⟨ha, has⟩ := List.forall_mem_cons.1 ha
    obtain ⟨hb, hbs⟩ := List.forall_mem_cons.1 hb
    rw [List.forall₂_cons, unspelledBranches, unspelledBranches, List.cons.injEq, Prod.mk.injEq,
      SameBranch, same_iff_unspelled_eq hr ha hb, sameBranches_iff_unspelled_eq hr has hbs]

end

mutual

/-- The comparison of a bound tree with any other comes to an answer. -/
theorem isSome_equal? {a : Pattern} (ha : AllNodes (Bound dialect registry) a) (b : Pattern) :
    (equal? a b).isSome := by
  cases a with
  | sequence as =>
    cases b with
    | sequence bs =>
      rw [equal?]
      split_ifs
      · exact isSome_equalAll? ha.child bs
      · rfl
    | _ => rfl
  | optional a =>
    cases b with
    | optional b => exact isSome_equal? ha.inside b
    | _ => rfl
  | choice as =>
    cases b with
    | choice bs =>
      rw [equal?]
      split_ifs
      · exact isSome_equalBranches? ha.branch bs
      · rfl
    | _ => rfl
  | unknown label => exact (ha _ (.root _)).elim
  | _ => cases b <;> rfl

theorem isSome_equalAll? {as : List Pattern}
    (ha : ∀ p ∈ as, AllNodes (Bound dialect registry) p) (bs : List Pattern) :
    (equalAll? as bs).isSome := by
  match as, bs with
  | [], _ => rfl
  | _ :: _, [] => rfl
  | a :: as, b :: bs =>
    obtain ⟨ha, has⟩ := List.forall_mem_cons.1 ha
    have hfirst := isSome_equal? ha b
    rw [equalAll?]
    split
    · exact isSome_equalAll? has bs
    · exact hfirst

theorem isSome_equalBranches? {as : List (Mark × Pattern)}
    (ha : ∀ branch ∈ as, AllNodes (Bound dialect registry) branch.2) (bs : List (Mark × Pattern)) :
    (equalBranches? as bs).isSome := by
  match as, bs with
  | [], _ => rfl
  | _ :: _, [] => rfl
  | (mark, a) :: as, (mark', b) :: bs =>
    obtain ⟨ha, has⟩ := List.forall_mem_cons.1 ha
    have hfirst := isSome_equal? ha b
    rw [equalBranches?]
    split_ifs
    · split
      · exact isSome_equalBranches? has bs
      · exact hfirst
    · rfl

end

end Bound

/-! ### What matching sees of spellings -/

theorem Interchangeable.refl (p : Pattern) : Interchangeable p p :=
  ⟨rfl, fun _ _ _ _ => rfl⟩

/-- Parts that are interchangeable one by one match alike one after the other. -/
theorem SequencesAlike.of_forall₂ {ps qs : List Pattern}
    (h : List.Forall₂ Interchangeable ps qs) : SequencesAlike ps qs := by
  induction h with
  | nil => exact ⟨rfl, fun _ _ _ _ _ _ => rfl⟩
  | @cons p q ps qs hp _ ih =>
    have hhead := SequencesAlike.head hp ps
    have hrest := ih.cons q
    refine ⟨hhead.ways.trans hrest.ways, ?_⟩
    intro V m input pos ctx former hwithin
    exact (hhead.run m input pos ctx former hwithin).trans
      (hrest.run m input pos ctx former hwithin)

/-- Branches with the same marks that are interchangeable one by one match alike. -/
theorem BranchesAlike.of_forall₂ {as bs : List (Mark × Pattern)}
    (h : List.Forall₂ (fun a b => a.1 = b.1 ∧ Interchangeable a.2 b.2) as bs) :
    BranchesAlike as bs := by
  induction h with
  | nil => exact ⟨rfl, fun _ _ _ _ => rfl⟩
  | @cons a b as bs hab _ ih =>
    obtain ⟨mark, p⟩ := a
    obtain ⟨mark', q⟩ := b
    obtain ⟨rfl, hpq⟩ := hab
    have hhead := BranchesAlike.head mark hpq as
    have hrest := ih.cons mark q
    refine ⟨hhead.ways.trans hrest.ways, ?_⟩
    intro V m input pos ctx
    exact (hhead.run m input pos ctx).trans (hrest.run m input pos ctx)

theorem Interchangeable.sequence_of_forall₂ {ps qs : List Pattern}
    (h : List.Forall₂ Interchangeable ps qs) :
    Interchangeable (.sequence ps) (.sequence qs) := by
  cases h with
  | nil => exact .refl _
  | cons hp hps =>
    exact .sequence (.of_forall₂ (.cons hp hps)) (List.cons_ne_nil _ _) (List.cons_ne_nil _ _)

mutual

/-- **A tree matches as it does without spellings:** a slot asks for its types, and does not say how
they were written. -/
theorem interchangeable_unspelled (p : Pattern) : Interchangeable p p.unspelled := by
  cases p with
  | text content => exact .refl _
  | regex source finder => exact .refl _
  | unknown label => exact .refl _
  | sequence children =>
    exact .sequence_of_forall₂ (interchangeableAll_unspelled children)
  | optional child => exact (interchangeable_unspelled child).optional
  | choice alternatives =>
    exact .choice (.of_forall₂ (interchangeableBranches_unspelled alternatives))
  | slot s =>
    refine ⟨rfl, ?_⟩
    intro V m input pos ctx
    rw [unspelled, Matcher.run, Matcher.run]
    rfl

theorem interchangeableAll_unspelled (ps : List Pattern) :
    List.Forall₂ Interchangeable ps (unspelledAll ps) := by
  match ps with
  | [] => exact .nil
  | p :: rest => exact .cons (interchangeable_unspelled p) (interchangeableAll_unspelled rest)

theorem interchangeableBranches_unspelled (alternatives : List (Mark × Pattern)) :
    List.Forall₂ (fun a b => a.1 = b.1 ∧ Interchangeable a.2 b.2) alternatives
      (unspelledBranches alternatives) := by
  match alternatives with
  | [] => exact .nil
  | (mark, p) :: rest =>
    exact .cons ⟨rfl, interchangeable_unspelled p⟩ (interchangeableBranches_unspelled rest)

end

/-- The trees that patterns are compiled to with a registry. -/
def Compiled (dialect : Regex.Dialect) (registry : Registry) : Type :=
  { t : Pattern // ∃ source, compile dialect registry source = .ok t }

end Pattern

/-- **The comparison of trees is an equivalence, and matching respects it.**  Among the trees that
are compiled with one registry it always comes to an answer; it is reflexive, symmetric and
transitive; and two trees that are the same, however they spell their slots, end at the same place,
leave the same context, and have made the same offers with the same requests, whatever the input,
the offset, the context, the resolver and the letter case that counts. -/
theorem Matcher.equivalence_equal_and_matchAt_eq {dialect : Regex.Dialect} {registry : Registry}
    (hr : registry.Reachable dialect) :
    (∀ a b : Pattern.Compiled dialect registry, (Pattern.equal? a.1 b.1).isSome) ∧
    (Equivalence fun a b : Pattern.Compiled dialect registry =>
      Pattern.equal? a.1 b.1 = some true) ∧
    ∀ a b : Pattern.Compiled dialect registry, Pattern.equal? a.1 b.1 = some true →
      ∀ {V : Type} (m : Matcher V) (input : Text) (offset : Int) (ctx : Context V),
        m.matchAt input a.1 offset ctx = m.matchAt input b.1 offset ctx := by
  have hbound (a : Pattern.Compiled dialect registry) :
      Pattern.AllNodes (Pattern.Bound dialect registry) a.1 := by
    obtain ⟨t, source, h⟩ := a
    exact Pattern.bound_of_compile h
  have hiff (a b : Pattern.Compiled dialect registry) :
      Pattern.equal? a.1 b.1 = some true ↔ a.1.unspelled = b.1.unspelled :=
    Pattern.same_iff_unspelled_eq hr (hbound a) (hbound b)
  refine ⟨fun a b => Pattern.isSome_equal? (hbound a) b.1, ?_, ?_⟩
  · refine ⟨fun a => (hiff a a).2 rfl, ?_, ?_⟩
    · intro a b hab
      exact (hiff b a).2 ((hiff a b).1 hab).symm
    · intro a b c hab hbc
      exact (hiff a c).2 (((hiff a b).1 hab).trans ((hiff b c).1 hbc))
  · intro a b hab V m input offset ctx
    unfold Matcher.matchAt
    split_ifs
    · rfl
    · calc m.run input a.1 offset.toNat ctx
          = m.run input a.1.unspelled offset.toNat ctx :=
            (Pattern.interchangeable_unspelled a.1).run m input _ ctx
        _ = m.run input b.1.unspelled offset.toNat ctx := by rw [(hiff a b).1 hab]
        _ = m.run input b.1 offset.toNat ctx :=
            ((Pattern.interchangeable_unspelled b.1).run m input _ ctx).symm

/-- The registry of the built-in types. -/
def Registry.ofBuiltins : Registry :=
  (Registry.empty.registerBuiltins Regex.backtracking).1

/-- Two ways to spell a slot for several strings: the trees differ, but they are the same and are
filled alike. -/
theorem Matcher.equivalence_equal_and_matchAt_eq_texts :
    Registry.ofBuiltins.Reachable Regex.backtracking ∧
    ∃ a b : Pattern.Compiled Regex.backtracking Registry.ofBuiltins,
      a.1.render = Text.ofString "say %strings%" ∧ b.1.render = Text.ofString "say %texts%" ∧
      Pattern.equal? a.1 b.1 = some true ∧
      (Matcher.matchAt (V := Text) ⟨some fun text _ => some ⟨0, text⟩, true⟩
        (Text.ofString "say hello") a.1 0 {}).1 = some 9 ∧
      Matcher.matchAt (V := Text) ⟨some fun text _ => some ⟨0, text⟩, true⟩
        (Text.ofString "say hello") a.1 0 {} =
      Matcher.matchAt (V := Text) ⟨some fun text _ => some ⟨0, text⟩, true⟩
        (Text.ofString "say hello") b.1 0 {} := by
  have hreachable : Registry.ofBuiltins.Reachable Regex.backtracking :=
    Registry.Reachable.empty.registerAll _
  have hcompiled : (Pattern.compile Regex.backtracking Registry.ofBuiltins
      (Text.ofString "say %strings%")).toOption.any fun a =>
        (Pattern.compile Regex.backtracking Registry.ofBuiltins
          (Text.ofString "say %texts%")).toOption.any fun b =>
          a.render == Text.ofString "say %strings%" && b.render == Text.ofString "say %texts%" &&
            Pattern.equal? a b == some true &&
            (Matcher.matchAt (V := Text) ⟨some fun text _ => some ⟨0, text⟩, true⟩
              (Text.ofString "say hello") a 0 {}).1 == some 9 := by decide +kernel
  cases ha : Pattern.compile Regex.backtracking Registry.ofBuiltins
      (Text.ofString "say %strings%") with
  | error reason => simp [ha, Except.toOption] at hcompiled
  | ok a =>
    cases hb : Pattern.compile Regex.backtracking Registry.ofBuiltins
        (Text.ofString "say %texts%") with
    | error reason => simp [ha, hb, Except.toOption] at hcompiled
    | ok b =>
      simp only [ha, hb, Except.toOption, Option.any_some, Bool.and_eq_true, beq_iff_eq]
        at hcompiled
      obtain ⟨⟨⟨hrender, hrender'⟩, hequal⟩, hstop⟩ := hcompiled
      obtain ⟨-, -, halike⟩ := equivalence_equal_and_matchAt_eq hreachable
      exact ⟨hreachable, ⟨a, _, ha⟩, ⟨b, _, hb⟩, hrender, hrender', hequal, hstop,
        halike ⟨a, _, ha⟩ ⟨b, _, hb⟩ hequal _ _ _ _⟩

end Phrasebook
