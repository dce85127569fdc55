import Phrasebook.Proofs.Match.Derivation
import Phrasebook.Proofs.Pattern.Marks

/-!
# The leaves of a match

A derivation tells which leaves of a tree a match went through.  Here it is shown that these leaves
lie end to end in the input, and how what was collected is spread over them.

* `Matcher.Joined` : leaves that lie end to end between two positions.
* `Matcher.Derives.joined` : the leaves of a derivation do.
* `Matcher.exists_derivation_of_matchAt` : every match in a fresh context has a derivation whose
  leaves lie end to end from its offset to its end, whose slots have the values and whose regular
  expressions have the captures that were collected, one each and in order, and whose branches have
  the marks.  A compiled tree never gives a negative mark.
-/

namespace Phrasebook

namespace Matcher

variable {V : Type}

namespace Leaf

/-- Where a leaf starts. -/
def start : Leaf V → Nat
  | .text _ start _ | .regex _ _ start _ | .slot _ start _ => start

/-- Where a leaf stops. -/
def stop : Leaf V → Nat
  | .text _ _ stop | .regex _ _ _ stop | .slot _ _ stop => stop

end Leaf

/-- Leaves that lie end to end: the first starts at one position, each other one where the one
before it stops, and the last stops at the other position. -/
def Joined (start : Nat) : List (Leaf V) → Nat → Prop
  | [], stop => start = stop
  | leaf :: rest, stop => leaf.start = start ∧ Joined leaf.stop rest stop

theorem Joined.append {start middle stop : Nat} {leaves leaves' : List (Leaf V)}
    (h : Joined start leaves middle) (h' : Joined middle leaves' stop) :
    Joined start (leaves ++ leaves') stop := by
  induction leaves generalizing start with
  | nil => exact h ▸ h'
  | cons leaf rest ih => exact ⟨h.1, ih h.2⟩

variable {m : Matcher V} {input : Text} {depth : Int} {p : Pattern} {start stop : Nat}
  {leaves : List (Leaf V)} {marks : List Mark}

/-- **The leaves of a derivation lie end to end.** -/
theorem Derives.joined (h : Derives m input depth p start stop leaves marks) :
    Joined start leaves stop := by
  induction h with
  | text _ => exact ⟨rfl, rfl⟩
  | regex _ => exact ⟨rfl, rfl⟩
  | filled _ _ _ _ _ => exact ⟨rfl, rfl⟩
  | empty _ => exact ⟨rfl, rfl⟩
  | done => exact rfl
  | next _ _ ih ih' => exact ih.append ih'
  | taken _ ih => exact ih
  | skipped => exact rfl
  | branch _ _ ih => exact ih

/-- A capture is as long as its leaf, and is offered the input from the leaf's start on. -/
def Leaf.Captured (leaf : Leaf V) : Prop :=
  ∀ capture, leaf.capture? = some capture →
    capture.offset = leaf.start ∧ leaf.start + capture.text.length = leaf.stop

theorem offset_of_captureAt {finder : Option Regex.Finder} {pos : Nat} {capture : Capture}
    (h : captureAt finder input pos = some capture) : capture.offset = pos := by
  unfold captureAt at h
  split at h
  · simp at h
  · obtain ⟨found, -, rfl⟩ := Option.map_eq_some_iff.1 h
    rfl

theorem Derives.captured (h : Derives m input depth p start stop leaves marks) :
    ∀ leaf ∈ leaves, leaf.Captured := by
  induction h with
  | text _ => simp [Leaf.Captured, Leaf.capture?]
  | regex hc =>
    simp only [List.forall_mem_singleton, Leaf.Captured, Leaf.capture?, Option.some.injEq]
    rintro capture rfl
    exact ⟨offset_of_captureAt hc, rfl⟩
  | filled _ _ _ _ _ => simp [Leaf.Captured, Leaf.capture?]
  | empty _ => simp [Leaf.Captured, Leaf.capture?]
  | done => simp
  | next _ _ ih ih' => exact List.forall_mem_append.2 ⟨ih, ih'⟩
  | taken _ ih => exact ih
  | skipped => simp
  | branch _ _ ih => exact ih

/-! ### Marks -/

theorem mem_branchMarks {alternatives : List (Mark × Pattern)} {mark : Mark} {p : Pattern}
    (h : (mark, p) ∈ alternatives) :
    ∀ other, other = mark ∨ other ∈ p.marks → other ∈ Pattern.branchMarks alternatives := by
  induction alternatives with
  | nil => simp at h
  | cons alternative rest ih =>
    obtain ⟨mark', q⟩ := alternative
    intro other hother
    rw [Pattern.branchMarks, List.cons_append, List.mem_cons, List.mem_append]
    rcases List.mem_cons.1 h with heq | hmem
    · obtain ⟨rfl, rfl⟩ := Prod.mk.inj heq
      exact hother.imp_right .inl
    · exact .inr (.inr (ih hmem other hother))

/-- The marks a derivation picks are marks of the tree. -/
theorem Derives.marks_subset (h : Derives m input depth p start stop leaves marks) :
    marks ⊆ p.marks := by
  induction h with
  | text _ => exact List.nil_subset _
  | regex _ => exact List.nil_subset _
  | filled _ _ _ _ _ => exact List.nil_subset _
  | empty _ => exact List.nil_subset _
  | done => exact List.nil_subset _
  | @next p rest _ _ _ _ _ _ _ _ _ ih ih' =>
    have hmarks : (Pattern.sequence (p :: rest)).marks =
        p.marks ++ (Pattern.sequence rest).marks := rfl
    rw [hmarks]
    exact List.append_subset.2
      ⟨List.subset_append_of_subset_left _ ih, List.subset_append_of_subset_right _ ih'⟩
  | taken _ ih => exact ih
  | skipped => exact List.nil_subset _
  | branch hmem _ ih =>
    refine List.append_subset.2 ⟨fun mark hmark => ?_, fun mark hmark => ?_⟩
    · exact mem_branchMarks hmem mark (.inr (ih hmark))
    · exact mem_branchMarks hmem mark (.inl (List.mem_singleton.1 hmark))

theorem toInt_xor_nonneg {a b : Mark} (ha : 0 ≤ a.toInt) (hb : 0 ≤ b.toInt) :
    0 ≤ (a ^^^ b).toInt := by
  have hmsb (c : Mark) : c.toBitVec.msb = decide (c.toInt < 0) := BitVec.msb_eq_toInt
  have hxor : (a ^^^ b).toBitVec.msb = false := by
    rw [Int64.toBitVec_xor, BitVec.msb_xor, hmsb, hmsb, decide_eq_false (by omega),
      decide_eq_false (by omega)]
    rfl
  rw [hmsb, decide_eq_false_iff_not] at hxor
  omega

theorem toInt_combine_nonneg {marks : List Mark} (h : ∀ mark ∈ marks, 0 ≤ mark.toInt) :
    0 ≤ (combine marks).toInt := by
  induction marks with
  | nil => exact Int.le_refl 0
  | cons mark rest ih =>
    rw [List.forall_mem_cons] at h
    exact toInt_xor_nonneg h.1 (ih h.2)

/-! ### Matches -/

/-- **Every match is justified by a derivation of its tree.**  Its leaves lie end to end from the
offset to the end of the match.  There is one value for each slot visited, in order, which the
resolver gave unless the slot may stay empty and does, and one capture for each regular expression
visited, in order, of the offset and length of its leaf.  The mark is that of the branches picked,
combined, and for a compiled tree it lies from 0 to 2^63 - 1. -/
theorem exists_derivation_of_matchAt {m : Matcher V} {input : Text} {p : Pattern}
    {offset depth : Int} {stop : Nat} {after : Context V}
    (h : m.matchAt input p offset { depth := depth } = (some stop, after)) :
    ∃ (start : Nat) (leaves : List (Leaf V)) (marks : List Mark),
      offset = start ∧ Derives m input depth p start stop leaves marks ∧
      Joined start leaves stop ∧
      after.values = (visits leaves).map Visit.value ∧
      (∀ visit ∈ visits leaves, visit.Justified m depth) ∧
      after.captures = captures leaves ∧ (∀ leaf ∈ leaves, leaf.Captured) ∧
      after.mark = combine marks ∧
      ∀ dialect registry source, Pattern.compile dialect registry source = .ok p →
        0 ≤ after.mark.toInt ∧ after.mark.toInt ≤ 9223372036854775807 := by
  unfold matchAt at h
  split_ifs at h with hoffset
  · simp at h
  · obtain ⟨leaves, marks, hderives, haccounts⟩ := exists_derives_of_run h
    have hmark : after.mark = combine marks := by simpa using haccounts.mark
    refine ⟨offset.toNat, leaves, marks, by omega, hderives, hderives.joined, haccounts.values,
      hderives.justified, haccounts.captures, hderives.captured, hmark, ?_⟩
    intro dialect registry source hcompile
    have hnonneg := Pattern.marks_nonneg_of_compile hcompile
    have hpicked := toInt_combine_nonneg fun mark hm => hnonneg mark (hderives.marks_subset hm)
    have hlt := after.mark.toInt_lt
    exact ⟨hmark ▸ hpicked, by omega⟩

/-- A pattern whose first branch fills a slot and captures a digit before it is given up. -/
def retried : Text :=
  Text.ofString "(1¦%string% <[0-9]> now|2¦[4¦<[a-z]+>] (8¦x|16¦<[0-9]+>))"

/-- A matcher whose slots take any text as their value. -/
def takesAll : Matcher Text :=
  ⟨some fun text _ => some ⟨0, text⟩, false⟩

/-- The marks of the second branch and of what it holds count, and nothing of the first. -/
theorem exists_derivation_of_matchAt_retried :
    ∃ p after,
      Pattern.compile Regex.backtracking (Registry.empty.registerBuiltins Regex.backtracking).1
        retried = .ok p ∧
      takesAll.matchAt (Text.ofString "go 42") p 0 {} = (some 5, after) ∧
      ∃ leaves marks, Derives takesAll (Text.ofString "go 42") 0 p 0 5 leaves marks ∧
        Joined 0 leaves 5 ∧ after.captures = captures leaves ∧ combine marks = 22 ∧
        0 ≤ after.mark.toInt := by
  have h : (Pattern.compile Regex.backtracking
      (Registry.empty.registerBuiltins Regex.backtracking).1 retried).toOption.map (fun p =>
        let step := takesAll.matchAt (Text.ofString "go 42") p 0 {}
        (step.1, step.2.mark)) = some (some 5, 22) := by decide +kernel
  obtain ⟨p, hp, hstep⟩ := Option.map_eq_some_iff.1 h
  have hcompile := Pattern.toOption_eq_some.1 hp
  obtain ⟨hstop, hmark⟩ := Prod.mk.inj hstep
  have hmatch : takesAll.matchAt (Text.ofString "go 42") p 0 {} =
      (some 5, (takesAll.matchAt (Text.ofString "go 42") p 0 {}).2) := Prod.ext hstop rfl
  obtain ⟨start, leaves, marks, hstart, hderives, hjoined, -, -, hcaptures, -, hcombine, hbound⟩ :=
    exists_derivation_of_matchAt hmatch
  obtain rfl : start = 0 := by omega
  exact ⟨p, _, hcompile, hmatch, leaves, marks, hderives, hjoined, hcaptures,
    hcombine.symm.trans hmark, (hbound _ _ _ hcompile).1⟩

end Matcher

end Phrasebook
