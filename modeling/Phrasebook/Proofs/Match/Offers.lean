import Phrasebook.Proofs.Match.Transaction

/-!
# What a match asks of its resolver

A context keeps a record of all texts that were offered to the resolver.  The record is complete: it
is all that a match depends on the resolver for.

* `Matcher.run_eq_of_agree` : two resolvers that give the same answers to the offers that were made
  with the first match alike.
* `Matcher.run_offers` : all offers are made at the nesting level of the context.
-/

namespace Phrasebook

namespace Matcher

variable {V : Type}

/-- Two resolvers answer all these offers alike. -/
def Agree (resolve resolve' : Resolver V) (offers : List Offer) : Prop :=
  ∀ offer ∈ offers, resolve offer.text offer.request = resolve' offer.text offer.request

theorem Agree.subset {resolve resolve' : Resolver V} {offers fewer : List Offer}
    (h : Agree resolve resolve' offers) (hsubset : fewer ⊆ offers) :
    Agree resolve resolve' fewer :=
  fun offer hoffer => h offer (hsubset hoffer)

/-! ### The record only grows -/

section Record

variable (m : Matcher V) (input : Text)

theorem offers_subset_runAll (ps : List Pattern) (pos : Nat) (ctx : Context V) :
    ctx.offers ⊆ (m.runAll input ps pos ctx).2.offers := by
  rw [runAll_append]
  exact List.subset_append_left _ _

theorem offers_subset_runBranches (alternatives : List (Mark × Pattern)) (pos : Nat)
    (ctx : Context V) : ctx.offers ⊆ (m.runBranches input alternatives pos ctx).2.offers := by
  rw [runBranches_append]
  exact List.subset_append_left _ _

theorem matchAll_snd (p : Pattern) (ctx : Context V) :
    (m.matchAll input p ctx).2 = (m.run input p 0 ctx).2 := by
  unfold matchAll
  generalize m.run input p 0 ctx = r
  obtain ⟨stop, after⟩ := r
  cases stop with
  | none => rfl
  | some stop =>
    simp only
    split_ifs <;> rfl

theorem leaveEmpty_offers (slot : Slot) (pos : Nat) (ctx : Context V) :
    (leaveEmpty slot pos ctx).2.offers = ctx.offers := by
  unfold leaveEmpty
  split <;> rfl

end Record

/-! ### Resolvers that agree -/

section Agreement

variable {resolve resolve' : Resolver V} {caseSensitive : Bool} {input : Text}

theorem offerEach_eq_of_agree {request : Request} {admissible : Nat → Bool}
    {candidate : Nat → Text} {stops : List Nat}
    (h : Agree resolve resolve' (offerEach resolve request admissible candidate stops).1) :
    offerEach resolve' request admissible candidate stops =
      offerEach resolve request admissible candidate stops := by
  induction stops with
  | nil => rfl
  | cons stop rest ih =>
    unfold offerEach at h ⊢
    split_ifs at h ⊢
    · cases hanswer : resolve (candidate stop) request with
      | some r =>
        simp only [hanswer] at h
        have hsame : resolve (candidate stop) request = resolve' (candidate stop) request :=
          h _ List.mem_cons_self
        rw [← hsame, hanswer]
      | none =>
        simp only [hanswer] at h
        have hsame : resolve (candidate stop) request = resolve' (candidate stop) request :=
          h _ List.mem_cons_self
        rw [← hsame, hanswer, ih (h.subset (List.subset_cons_self _ _))]
    · exact ih h

theorem fillSlot_eq_of_agree {slot : Slot} {pos : Nat} {ctx : Context V} (h : Agree resolve resolve'
      (fillSlot ⟨some resolve, caseSensitive⟩ input slot pos ctx).2.offers) :
    fillSlot ⟨some resolve', caseSensitive⟩ input slot pos ctx =
      fillSlot ⟨some resolve, caseSensitive⟩ input slot pos ctx := by
  unfold fillSlot at h ⊢
  simp only at h ⊢
  split_ifs at h ⊢
  · rfl
  · rw [offerEach_eq_of_agree]
    refine h.subset ?_
    -- what the slot offers is recorded whether one of the texts is taken or none
    split
    · exact List.subset_append_right _ _
    · rw [leaveEmpty_offers]
      exact List.subset_append_right _ _
  · rfl

mutual

/-- **A match depends on its resolver through the offers it makes alone.** -/
theorem run_eq_of_agree {p : Pattern} {pos : Nat} {ctx : Context V}
    (h : Agree resolve resolve' (run ⟨some resolve, caseSensitive⟩ input p pos ctx).2.offers) :
    run ⟨some resolve', caseSensitive⟩ input p pos ctx =
      run ⟨some resolve, caseSensitive⟩ input p pos ctx := by
  unfold run at h ⊢
  split_ifs at h ⊢
  · rfl
  · cases p with
    | text content => rfl
    | regex source finder => rfl
    | slot slot => exact fillSlot_eq_of_agree h
    | unknown label => rfl
    | choice alternatives => exact runBranches_eq_of_agree h
    | sequence children =>
      simp only at h ⊢
      rw [runAll_eq_of_agree (h.subset ?_)]
      generalize runAll _ input children pos ctx = r
      obtain ⟨stop, after⟩ := r
      cases stop <;> exact List.Subset.refl _
    | optional child =>
      simp only at h ⊢
      rw [run_eq_of_agree (h.subset ?_)]
      generalize run _ input child pos ctx = r
      obtain ⟨stop, after⟩ := r
      cases stop <;> exact List.Subset.refl _

theorem runAll_eq_of_agree {ps : List Pattern} {pos : Nat} {ctx : Context V}
    (h : Agree resolve resolve' (runAll ⟨some resolve, caseSensitive⟩ input ps pos ctx).2.offers) :
    runAll ⟨some resolve', caseSensitive⟩ input ps pos ctx =
      runAll ⟨some resolve, caseSensitive⟩ input ps pos ctx := by
  match ps with
  | [] => rfl
  | p :: rest =>
    unfold runAll at h ⊢
    rw [run_eq_of_agree (h.subset ?_)]
    · generalize run _ input p pos (ctx.push rest) = r at h ⊢
      obtain ⟨next, after⟩ := r
      cases next with
      | none => rfl
      | some next => exact runAll_eq_of_agree h
    · generalize run _ input p pos (ctx.push rest) = r
      obtain ⟨next, after⟩ := r
      cases next with
      | none => exact List.Subset.refl _
      | some next => exact offers_subset_runAll _ input rest next after.pop

theorem runBranches_eq_of_agree {alternatives : List (Mark × Pattern)} {pos : Nat}
    {ctx : Context V} (h : Agree resolve resolve'
      (runBranches ⟨some resolve, caseSensitive⟩ input alternatives pos ctx).2.offers) :
    runBranches ⟨some resolve', caseSensitive⟩ input alternatives pos ctx =
      runBranches ⟨some resolve, caseSensitive⟩ input alternatives pos ctx := by
  match alternatives with
  | [] => rfl
  | (mark, p) :: rest =>
    unfold runBranches at h ⊢
    rw [run_eq_of_agree (h.subset ?_)]
    · generalize run _ input p pos ctx = r at h ⊢
      obtain ⟨stop, after⟩ := r
      cases stop with
      | some stop => rfl
      | none => exact runBranches_eq_of_agree h
    · generalize run _ input p pos ctx = r
      obtain ⟨stop, after⟩ := r
      cases stop with
      | some stop => exact List.Subset.refl _
      | none => exact offers_subset_runBranches _ input rest pos (after.restore ctx)

end

theorem matchAll_eq_of_agree {p : Pattern} {ctx : Context V} (h : Agree resolve resolve'
      (matchAll ⟨some resolve, caseSensitive⟩ input p ctx).2.offers) :
    matchAll ⟨some resolve', caseSensitive⟩ input p ctx =
      matchAll ⟨some resolve, caseSensitive⟩ input p ctx := by
  rw [matchAll_snd] at h
  unfold matchAll
  rw [run_eq_of_agree h]

theorem matchAt_eq_of_agree {p : Pattern} {offset : Int} {ctx : Context V}
    (h : Agree resolve resolve'
      (matchAt ⟨some resolve, caseSensitive⟩ input p offset ctx).2.offers) :
    matchAt ⟨some resolve', caseSensitive⟩ input p offset ctx =
      matchAt ⟨some resolve, caseSensitive⟩ input p offset ctx := by
  unfold matchAt at h ⊢
  split_ifs at h ⊢
  · rfl
  · exact run_eq_of_agree h

end Agreement

/-! ### The level of offers -/

/-- All offers of the second record that are not in the first are made at a nesting level. -/
def MadeAt (depth : Int) (former offers : List Offer) : Prop :=
  ∀ offer ∈ offers, offer ∈ former ∨ offer.request.depth = depth

theorem MadeAt.refl (depth : Int) (offers : List Offer) : MadeAt depth offers offers :=
  fun _ => .inl

theorem MadeAt.trans {depth : Int} {first second third : List Offer}
    (h : MadeAt depth first second) (h' : MadeAt depth second third) :
    MadeAt depth first third := by
  intro offer hoffer
  rcases h' offer hoffer with hsecond | hdepth
  · exact h offer hsecond
  · exact .inr hdepth

section Level

variable (m : Matcher V) (input : Text)

theorem offerEach_request {resolve : Resolver V} {request : Request} {admissible : Nat → Bool}
    {candidate : Nat → Text} {stops : List Nat} :
    ∀ offer ∈ (offerEach resolve request admissible candidate stops).1,
      offer.request = request := by
  induction stops with
  | nil => simp [offerEach]
  | cons stop rest ih =>
    unfold offerEach
    split_ifs
    · split
      · simp
      · simpa using ih
    · exact ih

theorem fillSlot_offers (slot : Slot) (pos : Nat) (ctx : Context V) :
    MadeAt ctx.depth ctx.offers (m.fillSlot input slot pos ctx).2.offers := by
  have hadd {offers : List Offer} (h : ∀ offer ∈ offers, offer.request = .ofSlot slot ctx.depth) :
      MadeAt ctx.depth ctx.offers (ctx.offers ++ offers) := by
    intro offer hoffer
    rcases List.mem_append.1 hoffer with hformer | hnew
    · exact .inl hformer
    · exact .inr (congrArg Request.depth (h offer hnew))
  unfold fillSlot
  split
  · exact leaveEmpty_offers slot pos ctx ▸ .refl _ _
  · simp only
    split_ifs
    · exact .refl _ _
    · split
      · exact hadd offerEach_request
      · rw [leaveEmpty_offers]
        exact hadd offerEach_request
    · exact leaveEmpty_offers slot pos ctx ▸ .refl _ _

mutual

/-- **All offers that a match makes are made at the level of its context.** -/
theorem run_offers (p : Pattern) (pos : Nat) (ctx : Context V) :
    MadeAt ctx.depth ctx.offers (m.run input p pos ctx).2.offers := by
  unfold run
  split_ifs
  · exact .refl _ _
  · cases p with
    | text content => exact .refl _ _
    | regex source finder =>
      simp only
      split <;> exact .refl _ _
    | slot slot => exact fillSlot_offers m input slot pos ctx
    | unknown label => exact .refl _ _
    | choice alternatives => exact runBranches_offers alternatives pos ctx
    | sequence children =>
      have h := runAll_offers children pos ctx
      simp only
      generalize m.runAll input children pos ctx = r at h ⊢
      obtain ⟨stop, after⟩ := r
      cases stop <;> exact h
    | optional child =>
      have h := run_offers child pos ctx
      simp only
      generalize m.run input child pos ctx = r at h ⊢
      obtain ⟨stop, after⟩ := r
      cases stop <;> exact h

theorem runAll_offers (ps : List Pattern) (pos : Nat) (ctx : Context V) :
    MadeAt ctx.depth ctx.offers (m.runAll input ps pos ctx).2.offers := by
  match ps with
  | [] => exact .refl _ _
  | p :: rest =>
    have h := run_offers p pos (ctx.push rest)
    have hdepth := m.run_depth input p pos (ctx.push rest)
    unfold runAll
    generalize m.run input p pos (ctx.push rest) = r at h hdepth ⊢
    obtain ⟨next, after⟩ := r
    cases next with
    | none => exact h
    | some next => exact h.trans (hdepth ▸ runAll_offers rest next after.pop)

theorem runBranches_offers (alternatives : List (Mark × Pattern)) (pos : Nat) (ctx : Context V) :
    MadeAt ctx.depth ctx.offers (m.runBranches input alternatives pos ctx).2.offers := by
  match alternatives with
  | [] => exact .refl _ _
  | (mark, p) :: rest =>
    have h := run_offers p pos ctx
    have hdepth := m.run_depth input p pos ctx
    unfold runBranches
    generalize m.run input p pos ctx = r at h hdepth ⊢
    obtain ⟨stop, after⟩ := r
    cases stop with
    | some stop => exact h
    | none => exact h.trans (hdepth ▸ runBranches_offers rest pos (after.restore ctx))

end

/-- A match in a context without any offers makes all of them at its level. -/
theorem run_offers_depth {p : Pattern} {pos : Nat} {depth : Int} {offer : Offer}
    (h : offer ∈ (m.run input p pos { depth := depth }).2.offers) :
    offer.request.depth = depth :=
  (run_offers m input p pos { depth := depth } offer h).resolve_left List.not_mem_nil

theorem matchAll_offers_depth {p : Pattern} {depth : Int} {offer : Offer}
    (h : offer ∈ (m.matchAll input p { depth := depth }).2.offers) :
    offer.request.depth = depth := by
  rw [matchAll_snd] at h
  exact run_offers_depth m input h

theorem matchAt_offers_depth {p : Pattern} {offset depth : Int} {offer : Offer}
    (h : offer ∈ (m.matchAt input p offset { depth := depth }).2.offers) :
    offer.request.depth = depth := by
  unfold matchAt at h
  split_ifs at h
  · exact absurd h List.not_mem_nil
  · exact run_offers_depth m input h

end Level

end Matcher

end Phrasebook
