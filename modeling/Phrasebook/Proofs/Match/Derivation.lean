import Phrasebook.Proofs.Match.Transaction
import Phrasebook.Proofs.Text.Utf8

/-!
# Derivations

A derivation of a tree shows how a match came about: it picks one branch of each choice it visits,
takes or leaves out each optional part, and fills each slot or leaves it empty.  Its leaves are the
nodes without parts that it visits, in the order of the pattern.

* `Matcher.Derives` : the derivations of a tree between two positions of an input, with their
  leaves and the marks of the branches picked.
* `Matcher.exists_derives_of_run` : every successful run has a derivation whose leaves account for
  all values and captures it collected, and whose marks account for its mark.

Branches that were tried and given up leave no trace in the derivation; that they leave none in the
context is what `Matcher.run_of_none` says.
-/

namespace Phrasebook

namespace Matcher

variable {V : Type}

/-- A visit of a slot. -/
structure Visit (V : Type) where
  /-- The slot. -/
  slot : Slot
  /-- The text that was offered to it and accepted; empty when it was left empty. -/
  offered : Text
  /-- What it was filled with. -/
  value : Option V

/-- A leaf of a derivation, with the positions where it starts and stops. -/
inductive Leaf (V : Type) where
  /-- Literal text. -/
  | text (content : Text) (start stop : Nat)
  /-- A regular expression and what it captured. -/
  | regex (source : Text) (capture : Capture) (start stop : Nat)
  /-- A slot. -/
  | slot (visit : Visit V) (start stop : Nat)

namespace Leaf

/-- The visit of a slot that a leaf stands for. -/
def visit? : Leaf V → Option (Visit V)
  | .slot visit _ _ => some visit
  | _ => none

/-- The capture of a regular expression that a leaf stands for. -/
def capture? : Leaf V → Option Capture
  | .regex _ capture _ _ => some capture
  | _ => none

end Leaf

/-- The slots visited, in order. -/
def visits (leaves : List (Leaf V)) : List (Visit V) := leaves.filterMap Leaf.visit?

/-- The captures made, in order. -/
def captures (leaves : List (Leaf V)) : List Capture := leaves.filterMap Leaf.capture?

/-- Marks combined. -/
def combine (marks : List Mark) : Mark := marks.foldr (· ^^^ ·) 0

/-- The bytes of a text from one position up to another. -/
def between (input : Text) (start stop : Nat) : Text := (input.drop start).take (stop - start)

/-- Derivations of a tree from one position of the input to another, with their leaves and the marks
of the branches they pick. -/
inductive Derives (m : Matcher V) (input : Text) (depth : Int) :
    Pattern → Nat → Nat → List (Leaf V) → List Mark → Prop where
  /-- Literal text stands in the input. -/
  | text {content : Text} {start stop : Nat}
      (h : Piece.matchAt m.caseSensitive input (Piece.ofText content) start = some stop) :
      Derives m input depth (.text content) start stop [.text content start stop] []
  /-- A regular expression captures something. -/
  | regex {source : Text} {finder : Option Regex.Finder} {start : Nat} {capture : Capture}
      (h : captureAt finder input start = some capture) :
      Derives m input depth (.regex source finder) start (start + capture.text.length)
        [.regex source capture start (start + capture.text.length)] []
  /-- The resolver accepts a piece of the input that does not end in white space. -/
  | filled {slot : Slot} {start last : Nat} {resolve : Resolver V} {r : Resolution V}
      (hresolve : m.resolver = some resolve) (hlt : start < last) (hle : last ≤ input.length)
      (hblank : (between input start last).endsBlank = false)
      (h : resolve (between input start last) (.ofSlot slot depth) = some r) :
      Derives m input depth (.slot slot) start (start + r.lengthWithin (last - start))
        [.slot ⟨slot, between input start last, some r.value⟩ start
          (start + r.lengthWithin (last - start))] []
  /-- A slot that may stay empty does. -/
  | empty {slot : Slot} {start : Nat} (h : slot.nullable) :
      Derives m input depth (.slot slot) start start [.slot ⟨slot, [], none⟩ start start] []
  /-- A sequence is over. -/
  | done {start : Nat} : Derives m input depth (.sequence []) start start [] []
  /-- The rest of a sequence goes on where its first part stops. -/
  | next {p : Pattern} {rest : List Pattern} {start middle stop : Nat}
      {leaves leaves' : List (Leaf V)} {marks marks' : List Mark}
      (h : Derives m input depth p start middle leaves marks)
      (h' : Derives m input depth (.sequence rest) middle stop leaves' marks') :
      Derives m input depth (.sequence (p :: rest)) start stop (leaves ++ leaves') (marks ++ marks')
  /-- An optional part is taken. -/
  | taken {child : Pattern} {start stop : Nat} {leaves : List (Leaf V)} {marks : List Mark}
      (h : Derives m input depth child start stop leaves marks) :
      Derives m input depth (.optional child) start stop leaves marks
  /-- An optional part is left out. -/
  | skipped {child : Pattern} {start : Nat} :
      Derives m input depth (.optional child) start start [] []
  /-- A branch of a choice is picked. -/
  | branch {alternatives : List (Mark × Pattern)} {mark : Mark} {p : Pattern} {start stop : Nat}
      {leaves : List (Leaf V)} {marks : List Mark} (hmem : (mark, p) ∈ alternatives)
      (h : Derives m input depth p start stop leaves marks) :
      Derives m input depth (.choice alternatives) start stop leaves (marks ++ [mark])

/-- All that a context gained over a former one comes from these leaves and marks. -/
structure Accounts (former after : Context V) (leaves : List (Leaf V)) (marks : List Mark) :
    Prop where
  /-- Each visit of a slot gave one value. -/
  values : after.values = former.values ++ (visits leaves).map Visit.value
  /-- Each regular expression gave one capture. -/
  captures : after.captures = former.captures ++ Matcher.captures leaves
  /-- Each branch gave its mark. -/
  mark : after.mark = former.mark ^^^ combine marks

theorem visits_append (leaves leaves' : List (Leaf V)) :
    visits (leaves ++ leaves') = visits leaves ++ visits leaves' :=
  List.filterMap_append

theorem captures_append (leaves leaves' : List (Leaf V)) :
    captures (leaves ++ leaves') = captures leaves ++ captures leaves' :=
  List.filterMap_append

theorem combine_append (marks marks' : List Mark) :
    combine (marks ++ marks') = combine marks ^^^ combine marks' := by
  induction marks with
  | nil => simp [combine]
  | cons mark marks ih =>
    change mark ^^^ combine (marks ++ marks') = (mark ^^^ combine marks) ^^^ combine marks'
    rw [ih, Int64.xor_assoc]

namespace Accounts

theorem of_sameCollected {former after : Context V} (h : after.SameCollected former) :
    Accounts former after [] [] :=
  ⟨by simp [h.1, visits], by simp [h.2.1, Matcher.captures], by simp [h.2.2, combine]⟩

theorem trans {a b c : Context V} {leaves leaves' : List (Leaf V)} {marks marks' : List Mark}
    (h : Accounts a b leaves marks) (h' : Accounts b c leaves' marks') :
    Accounts a c (leaves ++ leaves') (marks ++ marks') := by
  refine ⟨?_, ?_, ?_⟩
  · rw [h'.values, h.values, visits_append, List.map_append, List.append_assoc]
  · rw [h'.captures, h.captures, captures_append, List.append_assoc]
  · rw [h'.mark, h.mark, combine_append, Int64.xor_assoc]

theorem addMark {former after : Context V} {leaves : List (Leaf V)} {marks : List Mark}
    (h : Accounts former after leaves marks) (mark : Mark) :
    Accounts former (after.addMark mark) leaves (marks ++ [mark]) := by
  refine ⟨h.values, h.captures, ?_⟩
  change after.mark ^^^ mark = _
  rw [h.mark, combine_append, Int64.xor_assoc]
  simp [combine]

end Accounts

/-! ### Slots -/

theorem mem_charEnds {t : Text} {pos e : Nat} (h : e ∈ charEnds pos t.frontList) :
    pos < e ∧ e ≤ pos + t.length := by
  induction t using Text.frontList.induct generalizing pos with
  | case1 t hf =>
    rw [Text.frontList] at h
    split at h <;> simp_all [charEnds]
  | case2 t c w hf ih =>
    have hw := Text.front?_width hf
    rw [Text.frontList_of_front? hf] at h
    rcases List.mem_cons.1 h with rfl | h
    · omega
    · have := ih h
      rw [List.length_drop] at this
      omega

theorem offerEach_eq_some {resolve : Resolver V} {request : Request} {admissible : Nat → Bool}
    {candidate : Nat → Text} {stops : List Nat} {length : Nat} {value : V}
    (h : (offerEach resolve request admissible candidate stops).2 = some (length, value)) :
    ∃ stop ∈ stops, admissible stop ∧ ∃ r, resolve (candidate stop) request = some r ∧
      length = r.lengthWithin (candidate stop).length ∧ value = r.value := by
  induction stops with
  | nil => simp [offerEach] at h
  | cons stop rest ih =>
    have later
        (h : (offerEach resolve request admissible candidate rest).2 = some (length, value)) :
        ∃ s ∈ stop :: rest, admissible s ∧ ∃ r, resolve (candidate s) request = some r ∧
          length = r.lengthWithin (candidate s).length ∧ value = r.value := by
      obtain ⟨s, hs, hrest⟩ := ih h
      exact ⟨s, List.mem_cons_of_mem _ hs, hrest⟩
    unfold offerEach at h
    split_ifs at h with ha
    · cases hr : resolve (candidate stop) request with
      | none =>
        simp only [hr] at h
        exact later h
      | some r =>
        simp only [hr, Option.some.injEq, Prod.mk.injEq] at h
        exact ⟨stop, List.mem_cons_self, ha, r, hr, h.1.symm, h.2.symm⟩
    · exact later h

theorem length_between {input : Text} {stop : Nat} (start : Nat) (h : stop ≤ input.length) :
    (between input start stop).length = stop - start := by
  simp only [between, List.length_take, List.length_drop]
  omega

variable {m : Matcher V} {input : Text}

variable (m input) in
theorem exists_derives_of_leaveEmpty {slot : Slot} {start stop : Nat} {ctx after : Context V}
    (depth : Int) (h : leaveEmpty slot start ctx = (some stop, after)) :
    ∃ leaves marks, Derives m input depth (.slot slot) start stop leaves marks ∧
      Accounts ctx after leaves marks := by
  unfold leaveEmpty at h
  split_ifs at h with hn
  · simp only [Prod.mk.injEq, Option.some.injEq] at h
    obtain ⟨rfl, rfl⟩ := h
    refine ⟨_, _, .empty hn, ?_, ?_, ?_⟩
    · simp [Context.addValue, visits, Leaf.visit?]
    · simp [Context.addValue, captures, Leaf.capture?]
    · simp [Context.addValue, combine]
  · simp at h

theorem exists_derives_of_fillSlot {slot : Slot} {start stop : Nat} {ctx after : Context V}
    (h : m.fillSlot input slot start ctx = (some stop, after)) :
    ∃ leaves marks, Derives m input ctx.depth (.slot slot) start stop leaves marks ∧
      Accounts ctx after leaves marks := by
  unfold fillSlot at h
  cases hr : m.resolver with
  | none =>
    simp only [hr] at h
    exact exists_derives_of_leaveEmpty m input _ h
  | some resolve =>
    simp only [hr] at h
    split_ifs at h with hpos hstuck
    · simp at h
    · split at h
      · rename_i length value ho
        obtain ⟨last, hlast, hadm, r, hres, rfl, rfl⟩ := offerEach_eq_some ho
        -- the text ends after one of the characters that are left
        obtain ⟨hlt, hle⟩ := mem_charEnds hlast
        simp only [List.length_drop] at hle
        replace hle : last ≤ input.length := by omega
        simp only [Bool.and_eq_true, Bool.not_eq_true'] at hadm
        simp only [Prod.mk.injEq, Option.some.injEq] at h
        obtain ⟨rfl, rfl⟩ := h
        have hlen := length_between start hle
        have hd := Derives.filled (m := m) hr hlt hle hadm.1 hres
        unfold between at hlen hd
        rw [hlen]
        refine ⟨_, _, hd, ?_, ?_, ?_⟩
        · simp [Context.addValue, Context.addOffers, visits, Leaf.visit?]
        · simp [Context.addValue, Context.addOffers, captures, Leaf.capture?]
        · simp [Context.addValue, Context.addOffers, combine]
      · obtain ⟨leaves, marks, hd, ha⟩ :=
          exists_derives_of_leaveEmpty m input ctx.depth h
        exact ⟨leaves, marks, hd, ha.values, ha.captures, ha.mark⟩
    · exact exists_derives_of_leaveEmpty m input _ h

/-! ### Runs -/

mutual

/-- **Every successful run is justified by a derivation** that accounts for all it collected. -/
theorem exists_derives_of_run {p : Pattern} {start stop : Nat} {ctx after : Context V}
    (h : m.run input p start ctx = (some stop, after)) :
    ∃ leaves marks, Derives m input ctx.depth p start stop leaves marks ∧
      Accounts ctx after leaves marks := by
  unfold run at h
  split_ifs at h with hpos
  · simp at h
  · cases p with
    | text content =>
      simp only [Prod.mk.injEq] at h
      obtain ⟨hm, rfl⟩ := h
      refine ⟨_, _, .text hm, ?_, ?_, ?_⟩
      · simp [visits, Leaf.visit?]
      · simp [captures, Leaf.capture?]
      · simp [combine]
    | regex source finder =>
      simp only at h
      split at h
      · rename_i capture hc
        simp only [Prod.mk.injEq, Option.some.injEq] at h
        obtain ⟨rfl, rfl⟩ := h
        refine ⟨_, _, .regex hc, ?_, ?_, ?_⟩
        · simp [Context.addCapture, visits, Leaf.visit?]
        · simp [Context.addCapture, captures, Leaf.capture?]
        · simp [Context.addCapture, combine]
      · simp at h
    | slot slot => exact exists_derives_of_fillSlot h
    | unknown label => simp at h
    | choice alternatives =>
      obtain ⟨leaves, marks, mark, q, hmem, hd, ha⟩ := exists_derives_of_runBranches h
      exact ⟨leaves, marks ++ [mark], .branch hmem hd, ha⟩
    | sequence children =>
      simp only at h
      split at h
      · rename_i s a hs
        obtain ⟨rfl, rfl⟩ : s = stop ∧ a = after := by simpa using h
        exact exists_derives_of_runAll hs
      · simp at h
    | optional child =>
      simp only at h
      split at h
      · rename_i s a hs
        obtain ⟨leaves, marks, hd, ha⟩ := exists_derives_of_run hs
        obtain ⟨rfl, rfl⟩ : s = stop ∧ a = after := by simpa using h
        exact ⟨leaves, marks, .taken hd, ha⟩
      · rename_i a hs
        obtain ⟨rfl, rfl⟩ : start = stop ∧ a.restore ctx = after := by simpa using h
        -- what the part collected before it was given up is gone
        have hsame := m.run_restore_sameCollected input child start ctx
        rw [hs] at hsame
        exact ⟨[], [], .skipped, .of_sameCollected hsame⟩

theorem exists_derives_of_runAll {ps : List Pattern} {start stop : Nat} {ctx after : Context V}
    (h : m.runAll input ps start ctx = (some stop, after)) :
    ∃ leaves marks, Derives m input ctx.depth (.sequence ps) start stop leaves marks ∧
      Accounts ctx after leaves marks := by
  match ps with
  | [] =>
    simp only [runAll, Prod.mk.injEq, Option.some.injEq] at h
    obtain ⟨rfl, rfl⟩ := h
    exact ⟨[], [], .done, .of_sameCollected ⟨rfl, rfl, rfl⟩⟩
  | p :: rest =>
    unfold runAll at h
    have hdepth := m.run_depth input p start (ctx.push rest)
    split at h
    · rename_i next middle hrun
      rw [hrun] at hdepth
      obtain ⟨leaves, marks, hd, ha⟩ := exists_derives_of_run hrun
      obtain ⟨leaves', marks', hd', ha'⟩ := exists_derives_of_runAll h
      replace hdepth : middle.pop.depth = ctx.depth := hdepth
      rw [hdepth] at hd'
      -- popping the siblings changes nothing that was collected
      have ha₀ : Accounts ctx middle.pop leaves marks := ⟨ha.values, ha.captures, ha.mark⟩
      exact ⟨leaves ++ leaves', marks ++ marks', .next hd hd', ha₀.trans ha'⟩
    · simp at h

theorem exists_derives_of_runBranches {alternatives : List (Mark × Pattern)} {start stop : Nat}
    {ctx after : Context V} (h : m.runBranches input alternatives start ctx = (some stop, after)) :
    ∃ leaves marks, ∃ mark p, (mark, p) ∈ alternatives ∧
      Derives m input ctx.depth p start stop leaves marks ∧
      Accounts ctx after leaves (marks ++ [mark]) := by
  match alternatives with
  | [] => simp [runBranches] at h
  | (mark, p) :: rest =>
    unfold runBranches at h
    split at h
    · rename_i s middle hrun
      obtain ⟨leaves, marks, hd, ha⟩ := exists_derives_of_run hrun
      obtain ⟨rfl, rfl⟩ : s = stop ∧ middle.addMark mark = after := by simpa using h
      exact ⟨leaves, marks, mark, p, List.mem_cons_self, hd, ha.addMark mark⟩
    · rename_i middle hrun
      -- this branch was given up, so the derivation is that of a later one
      have hsame := m.run_restore_sameCollected input p start ctx
      have hdepth := m.run_depth input p start ctx
      rw [hrun] at hsame hdepth
      obtain ⟨leaves, marks, mark', q, hmem, hd, ha⟩ := exists_derives_of_runBranches h
      replace hdepth : (middle.restore ctx).depth = ctx.depth := hdepth
      rw [hdepth] at hd
      exact ⟨leaves, marks, mark', q, List.mem_cons_of_mem _ hmem, hd,
        (Accounts.of_sameCollected hsame).trans ha⟩

end

/-! ### What derivations rest on -/

/-- A derivation uses the resolver only for requests at its own nesting level. -/
theorem Derives.of_resolver {m m' : Matcher V} {input : Text} {depth : Int}
    (hcase : m.caseSensitive = m'.caseSensitive)
    (hres : ∀ resolve, m.resolver = some resolve → ∃ resolve', m'.resolver = some resolve' ∧
      ∀ text slot, resolve text (.ofSlot slot depth) = resolve' text (.ofSlot slot depth))
    {p : Pattern} {start stop : Nat} {leaves : List (Leaf V)} {marks : List Mark}
    (h : Derives m input depth p start stop leaves marks) :
    Derives m' input depth p start stop leaves marks := by
  induction h with
  | text h => exact .text (hcase ▸ h)
  | regex h => exact .regex h
  | filled hr hlt hle hblank h =>
    obtain ⟨resolve', hr', hsame⟩ := hres _ hr
    exact .filled hr' hlt hle hblank (hsame _ _ ▸ h)
  | empty h => exact .empty h
  | done => exact .done
  | next _ _ ih ih' => exact .next ih ih'
  | taken _ ih => exact .taken ih
  | skipped => exact .skipped
  | branch hmem _ ih => exact .branch hmem ih

/-- A visit is justified when the slot may stay empty and does, or the resolver gave its value for
the text it was offered. -/
def Visit.Justified (m : Matcher V) (depth : Int) (visit : Visit V) : Prop :=
  (visit.slot.nullable ∧ visit.value = none) ∨
    ∃ resolve r, m.resolver = some resolve ∧ visit.offered.endsBlank = false ∧
      resolve visit.offered (.ofSlot visit.slot depth) = some r ∧ visit.value = some r.value

theorem Derives.justified {m : Matcher V} {input : Text} {depth : Int} {p : Pattern}
    {start stop : Nat} {leaves : List (Leaf V)} {marks : List Mark}
    (h : Derives m input depth p start stop leaves marks) :
    ∀ visit ∈ visits leaves, visit.Justified m depth := by
  induction h with
  | text h => simp [visits, Leaf.visit?]
  | regex h => simp [visits, Leaf.visit?]
  | filled hr hlt hle hblank h =>
    simp only [visits, List.filterMap_cons, Leaf.visit?, List.filterMap_nil, List.mem_singleton]
    rintro visit rfl
    exact .inr ⟨_, _, hr, hblank, h, rfl⟩
  | empty h =>
    simp only [visits, List.filterMap_cons, Leaf.visit?, List.filterMap_nil, List.mem_singleton]
    rintro visit rfl
    exact .inl ⟨h, rfl⟩
  | done => simp [visits]
  | next _ _ ih ih' =>
    intro visit hv
    rw [visits_append] at hv
    exact (List.mem_append.1 hv).elim (ih visit) (ih' visit)
  | taken _ ih => exact ih
  | skipped => simp [visits]
  | branch _ _ ih => exact ih

end Matcher

end Phrasebook
