import Phrasebook.Proofs.Match.Offers
import Phrasebook.Proofs.Match.Derivation

/-!
# The texts that slots are offered to fill them

While a tree is matched, slots are visited one after the other, some of them more than once and with
different things to follow.  At each visit the resolver is offered the candidates for the slot, the
nearest first, up to the first that it takes.

* `Matcher.CharEnd` : the places that reading characters from a position leads to.
* `Matcher.slotCalls` : the visits of slots in a run, in order.
* `Matcher.SlotCall.NearestFirst` : what a visit offers, and what comes of it, said without the loop.
* `Matcher.run_offers_eq` : what a run offers is what the visits of its slots offer.
* `Matcher.matchAt_nearestFirst` : **a match offers the candidates of each slot it visits, the
  nearest first, up to the one that is taken, and nothing else.**

A visit whose way on is a node of an unknown kind is broken off before anything is offered; in trees
of the known kinds there is none.
-/

namespace Phrasebook

namespace Matcher

variable {V : Type}

/-! ### Ends of characters -/

/-- The places that reading characters from a position, one after the other, leads to. -/
inductive CharEnd (input : Text) : Nat → Nat → Prop where
  /-- One character is read. -/
  | first {start width : Nat} {c : Char} (h : Text.front? (input.drop start) = some (c, width)) :
      CharEnd input start (start + width)
  /-- More are read after the first one. -/
  | next {start width stop : Nat} {c : Char}
      (h : Text.front? (input.drop start) = some (c, width))
      (hrest : CharEnd input (start + width) stop) : CharEnd input start stop

theorem mem_charEnds_iff {input : Text} {start stop : Nat} :
    stop ∈ charEnds start (Text.frontList (input.drop start)) ↔ CharEnd input start stop := by
  constructor
  · intro h
    generalize ht : input.drop start = t at h
    induction t using Text.frontList.induct generalizing start with
    | case1 t hf =>
      rw [Text.frontList] at h
      split at h <;> simp_all [charEnds]
    | case2 t c w hf ih =>
      rw [Text.frontList_of_front? hf] at h
      rcases List.mem_cons.1 h with rfl | h
      · exact .first (ht ▸ hf)
      · exact .next (ht ▸ hf) (ih (by rw [← ht, List.drop_drop]) h)
  · intro h
    induction h with
    | first h =>
      rw [Text.frontList_of_front? h]
      exact List.mem_cons_self
    | next h _ ih =>
      rw [Text.frontList_of_front? h, charEnds, List.drop_drop]
      exact List.mem_cons_of_mem _ ih

theorem CharEnd.bounds {input : Text} {start stop : Nat} (h : CharEnd input start stop) :
    start < stop ∧ stop ≤ input.length := by
  have hends := mem_charEnds (mem_charEnds_iff.2 h)
  rw [List.length_drop] at hends
  omega

theorem pairwise_charEnds (t : Text) (pos : Nat) :
    (charEnds pos t.frontList).Pairwise (· < ·) := by
  induction t using Text.frontList.induct generalizing pos with
  | case1 t hf =>
    rw [Text.frontList]
    split
    · exact List.Pairwise.nil
    · simp_all
  | case2 t c w hf ih =>
    rw [Text.frontList_of_front? hf]
    exact List.pairwise_cons.2 ⟨fun stop hstop => (mem_charEnds hstop).1, ih _⟩

/-- Text of the input begins with the character that it begins with there. -/
theorem startsBlank_between {input : Text} {start stop : Nat} (h : CharEnd input start stop) :
    (between input start stop).startsBlank = Text.startsBlank (input.drop start) := by
  have hfirst : ∃ c width, Text.front? (input.drop start) = some (c, width) ∧
      start + width ≤ stop := by
    cases h with
    | first h => exact ⟨_, _, h, Nat.le_refl _⟩
    | next h hrest => exact ⟨_, _, h, Nat.le_of_lt hrest.bounds.1⟩
  obtain ⟨c, width, hf, hle⟩ := hfirst
  have htake := Text.front?_take hf (n := stop - start) (by omega)
  simp only [between, Text.startsBlank, htake, hf]

/-! ### Offering in order -/

section Order

/-- The numbers up to the first that is accepted, and that one. -/
def upToAccepted (accepts : Nat → Bool) : List Nat → List Nat
  | [] => []
  | stop :: rest => if accepts stop then [stop] else stop :: upToAccepted accepts rest

theorem upToAccepted_sublist (accepts : Nat → Bool) (stops : List Nat) :
    (upToAccepted accepts stops).Sublist stops := by
  induction stops with
  | nil => exact List.Sublist.refl _
  | cons stop rest ih =>
    unfold upToAccepted
    split_ifs
    · exact List.singleton_sublist.2 List.mem_cons_self
    · exact ih.cons_cons stop

/-- Of increasing numbers, those before which none is accepted. -/
theorem mem_upToAccepted_iff {accepts : Nat → Bool} {stops : List Nat}
    (hsorted : stops.Pairwise (· < ·)) {stop : Nat} :
    stop ∈ upToAccepted accepts stops ↔
      stop ∈ stops ∧ ∀ earlier ∈ stops, earlier < stop → accepts earlier = false := by
  induction stops with
  | nil => simp [upToAccepted]
  | cons least rest ih =>
    obtain ⟨hleast, hrest⟩ := List.pairwise_cons.1 hsorted
    have hself : ∀ earlier ∈ least :: rest, ¬ earlier < least := by
      intro earlier hmem hlt
      rcases List.mem_cons.1 hmem with rfl | hmem
      · exact Nat.lt_irrefl _ hlt
      · have := hleast earlier hmem
        omega
    unfold upToAccepted
    by_cases haccepted : accepts least
    · rw [if_pos haccepted, List.mem_singleton]
      constructor
      · rintro rfl
        exact ⟨List.mem_cons_self, fun earlier hmem hlt => absurd hlt (hself earlier hmem)⟩
      · rintro ⟨hmem, hnone⟩
        rcases List.mem_cons.1 hmem with rfl | hmem
        · rfl
        · have hfalse := hnone least List.mem_cons_self (hleast stop hmem)
          exact absurd (hfalse.symm.trans haccepted) Bool.false_ne_true
    · rw [if_neg haccepted, List.mem_cons, ih hrest, List.mem_cons, List.forall_mem_cons]
      have hrefused : accepts least = false := by simpa using haccepted
      constructor
      · rintro (rfl | ⟨hmem, hnone⟩)
        · exact ⟨.inl rfl, fun _ => hrefused, fun earlier hmem hlt =>
            absurd hlt (hself earlier (List.mem_cons_of_mem _ hmem))⟩
        · exact ⟨.inr hmem, fun _ => hrefused, hnone⟩
      · rintro ⟨rfl | hmem, -, hnone⟩
        · exact .inl rfl
        · exact .inr ⟨hmem, hnone⟩

variable (resolve : Resolver V) (request : Request) (admissible : Nat → Bool)
  (candidate : Nat → Text)

/-- The offers made: the admissible texts up to the first that is accepted. -/
theorem offerEach_fst (stops : List Nat) :
    (offerEach resolve request admissible candidate stops).1 =
      (upToAccepted (fun stop => (resolve (candidate stop) request).isSome)
        (stops.filter admissible)).map
          fun stop => ⟨candidate stop, request, (resolve (candidate stop) request).isSome⟩ := by
  induction stops with
  | nil => rfl
  | cons stop rest ih =>
    unfold offerEach
    by_cases hadmissible : admissible stop
    · rw [if_pos hadmissible, List.filter_cons_of_pos hadmissible, upToAccepted]
      cases hanswer : resolve (candidate stop) request with
      | some r => simp [hanswer]
      | none => simp [hanswer, ih]
    · rw [if_neg hadmissible, List.filter_cons_of_neg hadmissible, ih]

/-- The value found: that of the first admissible text that is accepted. -/
theorem offerEach_snd (stops : List Nat) :
    (offerEach resolve request admissible candidate stops).2 =
      (stops.filter admissible).findSome? fun stop => (resolve (candidate stop) request).map
        fun r => (r.lengthWithin (candidate stop).length, r.value) := by
  induction stops with
  | nil => rfl
  | cons stop rest ih =>
    unfold offerEach
    by_cases hadmissible : admissible stop
    · rw [if_pos hadmissible, List.filter_cons_of_pos hadmissible, List.findSome?_cons]
      cases resolve (candidate stop) request with
      | some r => rfl
      | none => exact ih
    · rw [if_neg hadmissible, List.filter_cons_of_neg hadmissible, ih]

end Order

/-! ### Visits of slots -/

/-- A visit of a slot while a tree is matched. -/
structure SlotCall (V : Type) where
  /-- The slot. -/
  slot : Slot
  /-- Where in the input it is visited. -/
  start : Nat
  /-- The context that it finds, with what is to follow it. -/
  context : Context V

namespace SlotCall

variable (m : Matcher V) (input : Text) (call : SlotCall V)

/-- The step that the visit takes. -/
def step : Step V :=
  m.run input (.slot call.slot) call.start call.context

/-- The texts offered to the resolver in the course of it. -/
def offers : List Offer :=
  (call.step m input).2.offers.drop call.context.offers.length

/-- What the slot asks of them: its types, its flags and the nesting level. -/
def request : Request where
  types := call.slot.types
  nullable := call.slot.nullable
  acceptance := call.slot.acceptance
  tense := call.slot.tense
  depth := call.context.depth

/-- What the resolver makes of the text up to a place. -/
def answer? (stop : Nat) : Option (Resolution V) :=
  m.resolver.bind fun resolve => resolve (between input call.start stop) call.request

/-- How much of the text up to a place fills the slot, and with which value. -/
def filling? (stop : Nat) : Option (Nat × V) :=
  (call.answer? m input stop).map fun r =>
    (r.lengthWithin (between input call.start stop).length, r.value)

/-- The text up to a place is a candidate: the place is reached by reading characters, the text has
no white space at its ends, and what is to follow can begin after it. -/
structure Candidate (stop : Nat) : Prop where
  /-- Characters end there. -/
  reached : CharEnd input call.start stop
  /-- The text does not start with white space. -/
  startsBlank : (between input call.start stop).startsBlank = false
  /-- The text does not end with white space. -/
  endsBlank : (between input call.start stop).endsBlank = false
  /-- The rest of the pattern can begin there. -/
  continues : Continuation.continues m.caseSensitive input stop
    (Continuation.ofFollow call.context.follow)

/-- The text up to a place has its turn: there is a resolver, the text is a candidate, and no
shorter candidate is taken. -/
def HasTurn (stop : Nat) : Prop :=
  m.resolver.isSome ∧ call.Candidate m input stop ∧
    ∀ earlier < stop, call.Candidate m input earlier → call.answer? m input earlier = none

/-- What a visit offers and what comes of it. -/
structure NearestFirst : Prop where
  /-- The texts that have their turn are offered, each once and the shorter ones first. -/
  offers_eq : ∃ stops : List Nat, stops.Pairwise (· < ·) ∧
    (∀ stop, stop ∈ stops ↔ call.HasTurn m input stop) ∧
    call.offers m input = stops.map fun stop =>
      ⟨between input call.start stop, call.request, (call.answer? m input stop).isSome⟩
  /-- One that is taken fills the slot, which ends after the bytes used, or after all of them when
  the number given is no length within the text. -/
  taken : ∀ stop r, call.HasTurn m input stop → call.answer? m input stop = some r →
    (call.step m input).1 = some (if 0 < r.length ∧ r.length ≤ (stop - call.start : Nat) then
      call.start + r.length.toNat else stop) ∧
    (call.step m input).2.values = call.context.values ++ [some r.value]
  /-- When none is taken, the slot stays empty where it is if it may, and fails otherwise. -/
  refused : (∀ stop, call.HasTurn m input stop → call.answer? m input stop = none) →
    if call.slot.nullable then
      (call.step m input).1 = some call.start ∧
        (call.step m input).2.values = call.context.values ++ [none]
    else
      (call.step m input).1 = none ∧ (call.step m input).2.values = call.context.values
  /-- Without a resolver nothing is offered. -/
  unresolved : m.resolver = none → call.offers m input = []

variable {m input call} {stop : Nat}

theorem step_eq (hstart : call.start ≤ input.length) :
    call.step m input = m.fillSlot input call.slot call.start call.context := by
  unfold step run
  rw [if_neg (Nat.not_lt.2 hstart)]

theorem answer?_eq {resolve : Resolver V} (hresolver : m.resolver = some resolve) (stop : Nat) :
    call.answer? m input stop = resolve (between input call.start stop) call.request := by
  rw [answer?, hresolver, Option.bind_some]

theorem Candidate.filled (h : call.Candidate m input stop) :
    call.start < input.length ∧ Text.startsBlank (input.drop call.start) = false := by
  have hbounds := h.reached.bounds
  exact ⟨by omega, startsBlank_between h.reached ▸ h.startsBlank⟩

/-- The candidates can be listed, and the visit goes through them. -/
theorem exists_candidates {resolve : Resolver V} (hresolver : m.resolver = some resolve)
    (hstart : call.start ≤ input.length)
    (hknown : Continuation.anyUnknown (Continuation.ofFollow call.context.follow) = false) :
    ∃ stops : List Nat, stops.Pairwise (· < ·) ∧
      (∀ stop, stop ∈ stops ↔ call.Candidate m input stop) ∧
      call.step m input =
        let ctx := call.context.addOffers
          ((upToAccepted (fun stop => (call.answer? m input stop).isSome) stops).map fun stop =>
            ⟨between input call.start stop, call.request, (call.answer? m input stop).isSome⟩)
        match stops.findSome? (call.filling? m input) with
        | some (length, value) => (some (call.start + length), ctx.addValue (some value))
        | none => leaveEmpty call.slot call.start ctx := by
  unfold filling?
  rw [step_eq hstart, fillSlot, hresolver]
  simp only [answer?_eq hresolver]
  by_cases hfilled : call.start < input.length ∧ Text.startsBlank (input.drop call.start) = false
  · refine ⟨(charEnds call.start (Text.frontList (input.drop call.start))).filter fun stop =>
      !(between input call.start stop).endsBlank && Continuation.continues m.caseSensitive input
        stop (Continuation.ofFollow call.context.follow), ?_, fun stop => ?_, ?_⟩
    · exact (pairwise_charEnds _ _).filter _
    · rw [List.mem_filter, mem_charEnds_iff, Bool.and_eq_true, Bool.not_eq_true']
      constructor
      · rintro ⟨hreached, hblank, hcontinues⟩
        exact ⟨hreached, (startsBlank_between hreached).trans hfilled.2, hblank, hcontinues⟩
      · intro h
        exact ⟨h.reached, h.endsBlank, h.continues⟩
    · rw [if_pos hfilled, if_neg (by simp [hknown]), offerEach_fst, offerEach_snd]
      rfl
  · refine ⟨[], List.Pairwise.nil, fun stop => ?_, ?_⟩
    · exact iff_of_false List.not_mem_nil fun h => hfilled h.filled
    · rw [if_neg hfilled]
      simp [upToAccepted, Context.addOffers]

theorem step_of_unresolved (hresolver : m.resolver = none)
    (hstart : call.start ≤ input.length) :
    call.step m input = leaveEmpty call.slot call.start call.context := by
  rw [step_eq hstart, fillSlot, hresolver]

theorem leaveEmpty_spec (slot : Slot) (pos : Nat) (ctx : Context V) :
    if slot.nullable then
      (leaveEmpty slot pos ctx).1 = some pos ∧
        (leaveEmpty slot pos ctx).2.values = ctx.values ++ [none]
    else (leaveEmpty slot pos ctx).1 = none ∧ (leaveEmpty slot pos ctx).2.values = ctx.values := by
  unfold leaveEmpty
  split_ifs <;> exact ⟨rfl, rfl⟩

/-- Of the listed candidates, those up to the first that is taken have their turn. -/
theorem mem_upToAccepted_iff_hasTurn (hresolver : m.resolver.isSome) {stops : List Nat}
    (hsorted : stops.Pairwise (· < ·))
    (hmem : ∀ stop, stop ∈ stops ↔ call.Candidate m input stop) :
    stop ∈ upToAccepted (fun stop => (call.answer? m input stop).isSome) stops ↔
      call.HasTurn m input stop := by
  simp only [mem_upToAccepted_iff hsorted, hmem, Option.isSome_eq_false_iff, Option.isNone_iff_eq_none]
  constructor
  · rintro ⟨hcandidate, hnone⟩
    exact ⟨hresolver, hcandidate, fun earlier hlt h => hnone earlier h hlt⟩
  · rintro ⟨-, hcandidate, hnone⟩
    exact ⟨hcandidate, fun earlier h hlt => hnone earlier hlt h⟩

/-- When none of those that have their turn is taken, each candidate has its turn. -/
theorem answer?_eq_none (hresolver : m.resolver.isSome)
    (hnone : ∀ stop, call.HasTurn m input stop → call.answer? m input stop = none)
    (h : call.Candidate m input stop) : call.answer? m input stop = none := by
  induction stop using Nat.strongRecOn with
  | _ stop ih =>
    refine hnone stop ⟨hresolver, h, fun earlier hlt hearlier => ?_⟩
    exact ih earlier hlt hearlier

/-- Of the listed candidates, the one that has its turn and is taken fills the slot. -/
theorem findSome?_filling? {stops : List Nat} (hsorted : stops.Pairwise (· < ·))
    (hmem : ∀ stop, stop ∈ stops ↔ call.Candidate m input stop) {r : Resolution V}
    (hturn : call.HasTurn m input stop) (h : call.answer? m input stop = some r) :
    stops.findSome? (call.filling? m input) =
      some (r.lengthWithin (between input call.start stop).length, r.value) := by
  obtain ⟨-, hcandidate, hearlier⟩ := hturn
  obtain ⟨before, after, rfl⟩ := List.append_of_mem ((hmem stop).2 hcandidate)
  refine List.findSome?_eq_some_iff.2 ⟨before, stop, after, rfl, ?_, fun earlier he => ?_⟩
  · rw [filling?, h, Option.map_some]
  · have hlt := (List.pairwise_append.1 hsorted).2.2 earlier he stop List.mem_cons_self
    have hlisted := (hmem earlier).1 (List.mem_append_left _ he)
    rw [filling?, hearlier earlier hlt hlisted, Option.map_none]

/-- Where what was used of a candidate ends. -/
theorem Candidate.add_lengthWithin (h : call.Candidate m input stop) (r : Resolution V) :
    call.start + r.lengthWithin (between input call.start stop).length =
      if 0 < r.length ∧ r.length ≤ (stop - call.start : Nat) then call.start + r.length.toNat
      else stop := by
  have hbounds := h.reached.bounds
  rw [length_between call.start hbounds.2, Resolution.lengthWithin]
  split_ifs
  · rfl
  · rw [Nat.add_sub_cancel' (Nat.le_of_lt hbounds.1)]

/-- A visit without a resolver offers nothing, and the slot stays empty. -/
theorem nearestFirst_of_unresolved (hresolver : m.resolver = none)
    (hstart : call.start ≤ input.length) : call.NearestFirst m input := by
  have hstep := step_of_unresolved hresolver hstart
  have hoffers : call.offers m input = [] := by
    rw [offers, hstep, leaveEmpty_offers, List.drop_length]
  have hturn (stop : Nat) : ¬ call.HasTurn m input stop := by
    rintro ⟨hsome, -⟩
    rw [hresolver] at hsome
    exact Bool.false_ne_true hsome
  refine ⟨⟨[], List.Pairwise.nil, fun stop => ?_, hoffers⟩, fun stop r h => ?_, fun _ => ?_,
    fun _ => hoffers⟩
  · exact iff_of_false List.not_mem_nil (hturn stop)
  · exact absurd h (hturn stop)
  · rw [hstep]
    exact leaveEmpty_spec _ _ _

/-- **A visit offers its candidates, the nearest first**, up to the one that is taken. -/
theorem nearestFirst (hstart : call.start ≤ input.length)
    (hknown : Continuation.anyUnknown (Continuation.ofFollow call.context.follow) = false) :
    call.NearestFirst m input := by
  cases hresolver : m.resolver with
  | none => exact nearestFirst_of_unresolved hresolver hstart
  | some resolve =>
    obtain ⟨stops, hsorted, hmem, hstep⟩ := exists_candidates hresolver hstart hknown
    have hsome : m.resolver.isSome := by rw [hresolver]; rfl
    have hturn (stop : Nat) :
        stop ∈ upToAccepted (fun stop => (call.answer? m input stop).isSome) stops ↔
          call.HasTurn m input stop :=
      mem_upToAccepted_iff_hasTurn hsome hsorted hmem
    simp only at hstep
    refine ⟨⟨_, hsorted.sublist (upToAccepted_sublist _ _), hturn, ?_⟩, fun stop r h hanswer => ?_,
      fun hnone => ?_, fun h => ?_⟩
    · rw [offers, hstep]
      split
      · exact List.drop_left
      · rw [leaveEmpty_offers]
        exact List.drop_left
    · rw [hstep, findSome?_filling? hsorted hmem h hanswer]
      exact ⟨congrArg some (h.2.1.add_lengthWithin r), rfl⟩
    · have hrefused : stops.findSome? (call.filling? m input) = none := by
        refine List.findSome?_eq_none_iff.2 fun stop hstop => ?_
        rw [filling?, answer?_eq_none hsome hnone ((hmem stop).1 hstop), Option.map_none]
      rw [hstep, hrefused]
      exact leaveEmpty_spec _ _ _
    · rw [hresolver] at h
      cases h

variable (m input call) in
theorem step_offers :
    (call.step m input).2.offers = call.context.offers ++ call.offers m input := by
  have hoffers : (call.step m input).2.offers = call.context.offers ++
      (m.run input (.slot call.slot) call.start call.context.clear).2.offers := by
    rw [step, run_append]
    rfl
  rw [offers, hoffers, List.drop_left]

end SlotCall

/-! ### The visits of a run -/

mutual

/-- The visits of slots in the run of a pattern, in order. -/
def slotCalls (m : Matcher V) (input : Text) (pattern : Pattern) (pos : Nat) (ctx : Context V) :
    List (SlotCall V) :=
  if input.length < pos then []
  else
    match pattern with
    | .text _ | .regex _ _ | .unknown _ => []
    | .sequence children => slotCallsAll m input children pos ctx
    | .optional child => slotCalls m input child pos ctx
    | .choice alternatives => slotCallsBranches m input alternatives pos ctx
    | .slot slot => [⟨slot, pos, ctx⟩]

/-- The visits of slots in the run of the parts of a sequence. -/
def slotCallsAll (m : Matcher V) (input : Text) (patterns : List Pattern) (pos : Nat)
    (ctx : Context V) : List (SlotCall V) :=
  match patterns with
  | [] => []
  | p :: rest =>
    slotCalls m input p pos (ctx.push rest) ++
      match run m input p pos (ctx.push rest) with
      | (some next, after) => slotCallsAll m input rest next after.pop
      | (none, _) => []

/-- The visits of slots in the run of the branches of a choice. -/
def slotCallsBranches (m : Matcher V) (input : Text) (alternatives : List (Mark × Pattern))
    (pos : Nat) (ctx : Context V) : List (SlotCall V) :=
  match alternatives with
  | [] => []
  | (_, p) :: rest =>
    slotCalls m input p pos ctx ++
      match run m input p pos ctx with
      | (some _, _) => []
      | (none, after) => slotCallsBranches m input rest pos (after.restore ctx)

end

/-- The visits of slots in a match at an offset. -/
def slotCallsAt (m : Matcher V) (input : Text) (pattern : Pattern) (offset : Int)
    (ctx : Context V) : List (SlotCall V) :=
  if offset < 0 then [] else m.slotCalls input pattern offset.toNat ctx

section Runs

variable (m : Matcher V) (input : Text)

mutual

/-- **What a run offers is what the visits of its slots offer**, one after the other. -/
theorem run_offers_eq (p : Pattern) (pos : Nat) (ctx : Context V) :
    (m.run input p pos ctx).2.offers =
      ctx.offers ++ (m.slotCalls input p pos ctx).flatMap (SlotCall.offers m input) := by
  by_cases hpos : input.length < pos
  · unfold run slotCalls
    simp [hpos]
  · cases p with
    | slot slot =>
      have hvisit := SlotCall.step_offers m input ⟨slot, pos, ctx⟩
      simp only [slotCalls, hpos, ↓reduceIte, List.flatMap_singleton]
      exact hvisit
    | text content => simp [run, slotCalls, hpos]
    | unknown label => simp [run, slotCalls, hpos, Context.setStuck]
    | regex source finder =>
      simp only [run, slotCalls, hpos, ↓reduceIte, List.flatMap_nil, List.append_nil]
      split <;> rfl
    | choice alternatives =>
      have ih := runBranches_offers_eq alternatives pos ctx
      simpa only [run, slotCalls, hpos, ↓reduceIte] using ih
    | sequence children =>
      have ih := runAll_offers_eq children pos ctx
      simp only [run, slotCalls, hpos, ↓reduceIte]
      generalize m.runAll input children pos ctx = r at ih ⊢
      obtain ⟨stop, after⟩ := r
      cases stop <;> exact ih
    | optional child =>
      have ih := run_offers_eq child pos ctx
      simp only [run, slotCalls, hpos, ↓reduceIte]
      generalize m.run input child pos ctx = r at ih ⊢
      obtain ⟨stop, after⟩ := r
      cases stop <;> exact ih

theorem runAll_offers_eq (ps : List Pattern) (pos : Nat) (ctx : Context V) :
    (m.runAll input ps pos ctx).2.offers =
      ctx.offers ++ (m.slotCallsAll input ps pos ctx).flatMap (SlotCall.offers m input) := by
  match ps with
  | [] => simp [runAll, slotCallsAll]
  | p :: rest =>
    have ih : (m.run input p pos (ctx.push rest)).2.offers = ctx.offers ++
        (m.slotCalls input p pos (ctx.push rest)).flatMap (SlotCall.offers m input) :=
      run_offers_eq p pos (ctx.push rest)
    simp only [runAll, slotCallsAll]
    generalize m.run input p pos (ctx.push rest) = r at ih ⊢
    obtain ⟨next, after⟩ := r
    cases next with
    | none => rwa [List.append_nil]
    | some next =>
      have hrest : (m.runAll input rest next after.pop).2.offers = after.offers ++
          (m.slotCallsAll input rest next after.pop).flatMap (SlotCall.offers m input) :=
        runAll_offers_eq rest next after.pop
      rw [hrest, ih, List.flatMap_append, List.append_assoc]

theorem runBranches_offers_eq (alternatives : List (Mark × Pattern)) (pos : Nat)
    (ctx : Context V) :
    (m.runBranches input alternatives pos ctx).2.offers = ctx.offers ++
      (m.slotCallsBranches input alternatives pos ctx).flatMap (SlotCall.offers m input) := by
  match alternatives with
  | [] => simp [runBranches, slotCallsBranches]
  | (mark, p) :: rest =>
    have ih := run_offers_eq p pos ctx
    simp only [runBranches, slotCallsBranches]
    generalize m.run input p pos ctx = r at ih ⊢
    obtain ⟨stop, after⟩ := r
    cases stop with
    | some stop => rwa [List.append_nil]
    | none =>
      have hrest : (m.runBranches input rest pos (after.restore ctx)).2.offers = after.offers ++
          (m.slotCallsBranches input rest pos (after.restore ctx)).flatMap
            (SlotCall.offers m input) :=
        runBranches_offers_eq rest pos (after.restore ctx)
      rw [hrest, ih, List.flatMap_append, List.append_assoc]

end

/-- A visit made in the course of a run lies within the input, at the nesting level of the run's
context, and only nodes of known kinds follow it if that is so of the run. -/
def SlotCall.Inside (ctx : Context V) (known : Bool) (call : SlotCall V) : Prop :=
  call.start ≤ input.length ∧ call.context.depth = ctx.depth ∧
    (known → ctx.follow.all Pattern.allKnown → call.context.follow.all Pattern.allKnown)

mutual

theorem inside_slotCalls (p : Pattern) (pos : Nat) (ctx : Context V) :
    ∀ call ∈ m.slotCalls input p pos ctx, call.Inside input ctx p.isKnown := by
  by_cases hpos : input.length < pos
  · unfold slotCalls
    simp [hpos]
  · cases p with
    | text content => simp [slotCalls, hpos]
    | unknown label => simp [slotCalls, hpos]
    | regex source finder => simp [slotCalls, hpos]
    | slot slot =>
      simp only [slotCalls, hpos, ↓reduceIte, List.forall_mem_singleton]
      exact ⟨Nat.not_lt.1 hpos, rfl, fun _ hf => hf⟩
    | choice alternatives =>
      simpa only [slotCalls, hpos, ↓reduceIte, Pattern.isKnown] using
        inside_slotCallsBranches alternatives pos ctx
    | sequence children =>
      simpa only [slotCalls, hpos, ↓reduceIte, Pattern.isKnown] using
        inside_slotCallsAll children pos ctx
    | optional child =>
      simpa only [slotCalls, hpos, ↓reduceIte, Pattern.isKnown] using
        inside_slotCalls child pos ctx

theorem inside_slotCallsAll (ps : List Pattern) (pos : Nat) (ctx : Context V) :
    ∀ call ∈ m.slotCallsAll input ps pos ctx, call.Inside input ctx (Pattern.allKnown ps) := by
  match ps with
  | [] => simp [slotCallsAll]
  | p :: rest =>
    have hdepth := m.run_depth input p pos (ctx.push rest)
    have hfollow := m.run_follow input p pos (ctx.push rest)
    simp only [slotCallsAll, Pattern.allKnown]
    intro call hcall
    rcases List.mem_append.1 hcall with hcall | hcall
    · obtain ⟨hstart, hlevel, hknown⟩ := inside_slotCalls p pos (ctx.push rest) call hcall
      refine ⟨hstart, hlevel, fun hp hf => ?_⟩
      rw [Bool.and_eq_true] at hp
      have hpush : (ctx.push rest).follow.all Pattern.allKnown := by simp [Context.push, hp.2, hf]
      exact hknown hp.1 hpush
    · generalize m.run input p pos (ctx.push rest) = r at hdepth hfollow hcall
      obtain ⟨next, after⟩ := r
      cases next with
      | none => simp at hcall
      | some next =>
        obtain ⟨hstart, hlevel, hknown⟩ := inside_slotCallsAll rest next after.pop call hcall
        replace hfollow : after.pop.follow = ctx.follow := congrArg List.tail hfollow
        refine ⟨hstart, hlevel.trans hdepth, fun hp hf => ?_⟩
        rw [Bool.and_eq_true] at hp
        exact hknown hp.2 (hfollow ▸ hf)

theorem inside_slotCallsBranches (alternatives : List (Mark × Pattern)) (pos : Nat)
    (ctx : Context V) : ∀ call ∈ m.slotCallsBranches input alternatives pos ctx,
      call.Inside input ctx (Pattern.branchesKnown alternatives) := by
  match alternatives with
  | [] => simp [slotCallsBranches]
  | (mark, p) :: rest =>
    have hdepth := m.run_depth input p pos ctx
    have hfollow := m.run_follow input p pos ctx
    simp only [slotCallsBranches, Pattern.branchesKnown]
    intro call hcall
    rcases List.mem_append.1 hcall with hcall | hcall
    · obtain ⟨hstart, hlevel, hknown⟩ := inside_slotCalls p pos ctx call hcall
      refine ⟨hstart, hlevel, fun hp hf => ?_⟩
      rw [Bool.and_eq_true] at hp
      exact hknown hp.1 hf
    · generalize m.run input p pos ctx = r at hdepth hfollow hcall
      obtain ⟨stop, after⟩ := r
      cases stop with
      | some stop => simp at hcall
      | none =>
        obtain ⟨hstart, hlevel, hknown⟩ :=
          inside_slotCallsBranches rest pos (after.restore ctx) call hcall
        replace hfollow : (after.restore ctx).follow = ctx.follow := hfollow
        refine ⟨hstart, hlevel.trans hdepth, fun hp hf => ?_⟩
        rw [Bool.and_eq_true] at hp
        exact hknown hp.2 (hfollow ▸ hf)

end

end Runs

/-- **A match offers its slots their candidates, the nearest first.**  All that is offered in the
course of a match is offered at the visits of its slots.  Each of these, at the nesting level of the
context, offers the candidates for its slot up to the first that the resolver takes, and goes on from
there; a visit is broken off only where a node of an unknown kind may follow, and that is never so in
a tree of the known kinds among such trees. -/
theorem matchAt_nearestFirst (m : Matcher V) (input : Text) (p : Pattern) (offset : Int)
    (ctx : Context V) :
    let calls := m.slotCallsAt input p offset ctx
    (m.matchAt input p offset ctx).2.offers =
        ctx.offers ++ calls.flatMap (SlotCall.offers m input) ∧
      (∀ call ∈ calls, call.context.depth = ctx.depth ∧
        (Continuation.anyUnknown (Continuation.ofFollow call.context.follow) = false →
          call.NearestFirst m input)) ∧
      (p.isKnown → ctx.follow.all Pattern.allKnown → ∀ call ∈ calls,
        Continuation.anyUnknown (Continuation.ofFollow call.context.follow) = false) := by
  intro calls
  by_cases hoffset : offset < 0
  · simp [calls, slotCallsAt, matchAt, hoffset]
  · have hcalls : calls = m.slotCalls input p offset.toNat ctx := if_neg hoffset
    have hinside := m.inside_slotCalls input p offset.toNat ctx
    rw [hcalls, matchAt, if_neg hoffset]
    refine ⟨m.run_offers_eq input p _ ctx, fun call hcall => ?_, fun hp hf call hcall => ?_⟩
    · obtain ⟨hstart, hdepth, -⟩ := hinside call hcall
      exact ⟨hdepth, SlotCall.nearestFirst hstart⟩
    · obtain ⟨-, -, hknown⟩ := hinside call hcall
      exact Continuation.anyUnknown_ofFollow (hknown hp hf)

/-- A pattern that visits one slot twice, before two different words. -/
def twoEndings : Pattern :=
  let slot : Pattern := .slot ⟨[], false, .both, .none, []⟩
  .choice [(1, .sequence [slot, .text (Text.ofString " x")]),
    (2, .sequence [slot, .text (Text.ofString " y")])]

/-- A matcher whose slots take texts of more than one byte. -/
def takesLonger : Matcher Text :=
  ⟨some fun text _ => if 1 < text.length then some ⟨0, text⟩ else none, false⟩

/-- The first visit offers what stands before the one word, and it is refused; the second visit
offers what stands before the other, and goes on after it. -/
theorem matchAt_nearestFirst_twoEndings :
    let calls := takesLonger.slotCallsAt (Text.ofString "a x b y") twoEndings 0 {}
    let after := takesLonger.matchAt (Text.ofString "a x b y") twoEndings 0 {}
    calls.length = 2 ∧ after.1 = some 7 ∧
      after.2.offers.map Offer.text = [Text.ofString "a", Text.ofString "a x b"] ∧
      after.2.offers = calls.flatMap (SlotCall.offers takesLonger (Text.ofString "a x b y")) ∧
      ∀ call ∈ calls, call.NearestFirst takesLonger (Text.ofString "a x b y") := by
  intro calls after
  obtain ⟨hoffers, hcalls, hknown⟩ :=
    matchAt_nearestFirst takesLonger (Text.ofString "a x b y") twoEndings 0 {}
  refine ⟨by decide +kernel, by decide +kernel, by decide +kernel, hoffers, fun call hcall => ?_⟩
  exact (hcalls call hcall).2 (hknown (by decide) (by decide) call hcall)

end Matcher

end Phrasebook
