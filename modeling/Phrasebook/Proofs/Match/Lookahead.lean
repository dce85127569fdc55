import Mathlib.Tactic.TFAE
import Phrasebook.Proofs.Match.Derivation
import Phrasebook.Proofs.Match.Offers
import Phrasebook.Proofs.Text.Blank

/-!
# Looking past a slot

A slot is offered only the texts that end where the rest of the pattern can begin, as far as
`Continuation.ofFollow` tells.  Here it is shown that this never turns down an end from which the
rest of the pattern does match, regular expressions apart.

* `Matcher.runFrames` : what is left of all enclosing sequences, matched from the innermost out.
* `Matcher.run_begins` : a node that matches begins in one of the ways read off it, or it is one
  that can be passed over and only white space lies between its start and its end.
* `Matcher.continues_of_runFrames` : where all that is left matches up to the end of the input, the
  rest of the pattern can begin.
* `Matcher.mem_offers_fillSlot_iff` : the texts that a slot is offered.
* `Matcher.lookahead_regex_tfae` : for which regular expressions right after a slot the same holds.

The two look at different places: the lookahead first moves past white space, the match starts
before it.  That is why being passed over is stated as "the same place after white space".  A
regular expression may begin with white space itself, so for it the two places do differ.
-/

namespace Phrasebook

namespace Pattern

mutual

/-- Whether a tree has no regular expression in it. -/
def regexFree : Pattern → Bool
  | .text _ | .slot _ | .unknown _ => true
  | .regex _ _ => false
  | .sequence children => allRegexFree children
  | .optional child => child.regexFree
  | .choice alternatives => branchesRegexFree alternatives

/-- Whether no tree of a list has a regular expression in it. -/
def allRegexFree : List Pattern → Bool
  | [] => true
  | p :: rest => p.regexFree && allRegexFree rest

/-- Whether no branch of a choice has a regular expression in it. -/
def branchesRegexFree : List (Mark × Pattern) → Bool
  | [] => true
  | (_, p) :: rest => p.regexFree && branchesRegexFree rest

end

end Pattern

/-! ### Literal text -/

namespace Piece

variable {caseSensitive : Bool} {input : Text}

theorem isBlank_of_mem_ofChars {c : Char} {cs : List Char} (h : .char c ∈ ofChars cs) :
    Unicode.isBlank c = false := by
  induction cs with
  | nil => simp [ofChars] at h
  | cons d rest ih =>
    unfold ofChars at h
    split_ifs at h with hd
    · -- a gap is put in front, or was there already
      split at h
      · rename_i more heq
        rw [heq] at ih
        exact ih (by simpa using h)
      · exact ih (by simpa using h)
    · rcases List.mem_cons.1 h with hc | hc
      · cases hc
        simpa using hd
      · exact ih hc

/-- Literal text that begins with a character does so where no white space is. -/
theorem skipBlank_of_matchAt_char {c : Char} {rest : List Piece} {pos next : Nat}
    (hc : Unicode.isBlank c = false)
    (h : matchAt caseSensitive input (.char c :: rest) pos = some next) :
    input.skipBlank pos = pos := by
  unfold matchAt at h
  split at h
  · simp at h
  · rename_i d width hfront
    split_ifs at h with hsame
    refine Text.skipBlank_of_startsBlank ?_
    rw [Text.startsBlank, hfront]
    exact (isBlank_of_sameChar hsame).symm.trans hc

theorem matchAt_dropGap {pieces : List Piece} {pos next : Nat} (hne : pieces ≠ [])
    (hchars : ∀ c, .char c ∈ pieces → Unicode.isBlank c = false)
    (h : matchAt caseSensitive input pieces pos = some next) :
    matchAt caseSensitive input (dropGap pieces) (input.skipBlank pos) = some next := by
  cases pieces with
  | nil => exact absurd rfl hne
  | cons piece rest =>
    cases piece with
    | gap =>
      unfold matchAt at h
      simp only at h
      split_ifs at h
      exact h
    | char c =>
      rw [skipBlank_of_matchAt_char (hchars c List.mem_cons_self) h]
      exact h

/-- Gaps alone lead no further than past the white space. -/
theorem skipBlank_of_matchAt_allBlank {pieces : List Piece} {pos next : Nat}
    (hblank : allBlank pieces) (h : matchAt caseSensitive input pieces pos = some next) :
    input.skipBlank next = input.skipBlank pos := by
  induction pieces generalizing pos with
  | nil =>
    simp only [matchAt, Option.some.injEq] at h
    rw [h]
  | cons piece rest ih =>
    simp only [allBlank, List.all_cons, Bool.and_eq_true, beq_iff_eq] at hblank
    obtain ⟨rfl, hrest⟩ := hblank
    unfold matchAt at h
    simp only at h
    split_ifs at h
    rw [ih hrest h, Text.skipBlank_skipBlank]

end Piece

namespace Matcher

variable {V : Type}

/-- Matches what is left of each enclosing sequence, the innermost first, each with the outer ones
as what follows it. -/
def runFrames (m : Matcher V) (input : Text) : List (List Pattern) → Nat → Context V → Step V
  | [], pos, ctx => (some pos, ctx)
  | siblings :: outer, pos, ctx =>
    match m.runAll input siblings pos { ctx with follow := outer } with
    | (some next, after) => runFrames m input outer next after
    | (none, after) => (none, after)

/-- One of the ways is met at a position, or all of them can be passed over to get to `next`. -/
def Begins (caseSensitive : Bool) (input : Text) (pos next : Nat)
    (ways : List Continuation × Bool) : Prop :=
  Continuation.continues caseSensitive input pos ways.1 ∨
    (ways.2 ∧ input.skipBlank next = input.skipBlank pos)

variable {m : Matcher V} {input : Text} {ctx after : Context V} {pos next : Nat}

theorem continues_append {caseSensitive : Bool} {first second : List Continuation} :
    Continuation.continues caseSensitive input pos (first ++ second) =
      (Continuation.continues caseSensitive input pos first ||
        Continuation.continues caseSensitive input pos second) :=
  List.any_append

/-- The lookahead starts after white space, so it sees no difference between two places that have
nothing else between them. -/
theorem continues_of_skipBlank_eq {caseSensitive : Bool} {ways : List Continuation}
    (hplace : input.skipBlank next = input.skipBlank pos)
    (h : Continuation.continues caseSensitive input next ways) :
    Continuation.continues caseSensitive input pos ways := by
  unfold Continuation.continues at h ⊢
  rwa [hplace] at h

/-! ### One node -/

theorem begins_text {content : Text}
    (h : Piece.matchAt m.caseSensitive input (Piece.ofText content) pos = some next) :
    Begins m.caseSensitive input pos next (Continuation.ofPattern (.text content)) := by
  unfold Continuation.ofPattern
  simp only
  split_ifs with hblank
  · exact .inr ⟨rfl, Piece.skipBlank_of_matchAt_allBlank hblank h⟩
  · left
    have hne : Piece.ofText content ≠ [] := by
      intro hnil
      rw [hnil] at hblank
      exact hblank rfl
    have hat := Piece.matchAt_dropGap hne (fun _ => Piece.isBlank_of_mem_ofChars) h
    simp [Continuation.continues, Continuation.beginsAt, hat]

theorem leaveEmpty_eq_some {slot : Slot} (h : leaveEmpty slot pos ctx = (some next, after)) :
    slot.nullable ∧ next = pos := by
  unfold leaveEmpty at h
  split_ifs at h with hnullable
  · exact ⟨hnullable, by simpa using (congrArg Prod.fst h).symm⟩
  · simp at h

/-- A slot is filled where there is text to fill it with, or left empty. -/
theorem fillSlot_eq_some {slot : Slot} (h : m.fillSlot input slot pos ctx = (some next, after)) :
    (pos < input.length ∧ Text.startsBlank (input.drop pos) = false) ∨
      (slot.nullable ∧ next = pos) := by
  unfold fillSlot at h
  cases hresolver : m.resolver with
  | none =>
    simp only [hresolver] at h
    exact .inr (leaveEmpty_eq_some h)
  | some resolve =>
    simp only [hresolver] at h
    split_ifs at h with hpos hunknown
    · exact .inl hpos
    · exact .inl hpos
    · exact .inr (leaveEmpty_eq_some h)

theorem begins_slot {slot : Slot} (h : m.fillSlot input slot pos ctx = (some next, after)) :
    Begins m.caseSensitive input pos next (Continuation.ofPattern (.slot slot)) := by
  rcases fillSlot_eq_some h with ⟨hlt, hstart⟩ | ⟨hnullable, rfl⟩
  · left
    simp [Continuation.ofPattern, Continuation.continues, Continuation.beginsAt,
      Text.skipBlank_of_startsBlank hstart, hlt]
  · exact .inr ⟨hnullable, rfl⟩

/-- If the first of two is begun, so are both; if it is passed over, the second decides. -/
theorem Begins.andThen {caseSensitive : Bool} {middle : Nat}
    {first second : List Continuation × Bool}
    (h : Begins caseSensitive input pos middle first)
    (h' : Begins caseSensitive input middle next second) :
    Begins caseSensitive input pos next (Continuation.andThen first second) := by
  unfold Continuation.andThen
  rcases h with hfirst | ⟨hopen, hplace⟩
  · left
    split_ifs
    · rw [continues_append, hfirst]
      rfl
    · exact hfirst
  · rw [if_pos hopen]
    rcases h' with hsecond | ⟨hopen', hplace'⟩
    · left
      rw [continues_append, continues_of_skipBlank_eq hplace hsecond, Bool.or_true]
    · exact .inr ⟨hopen', hplace'.trans hplace⟩

/-! ### Runs -/

mutual

/-- **A node that matches begins in one of its ways**, or can be passed over and is. -/
theorem run_begins {p : Pattern} {pos next : Nat} {ctx after : Context V} (hfree : p.regexFree)
    (h : m.run input p pos ctx = (some next, after)) :
    Begins m.caseSensitive input pos next (Continuation.ofPattern p) := by
  unfold run at h
  split_ifs at h with hpos
  · simp at h
  · cases p with
    | text content =>
      simp only [Prod.mk.injEq] at h
      exact begins_text h.1
    | regex source finder => simp [Pattern.regexFree] at hfree
    | slot slot => exact begins_slot h
    | unknown label => simp at h
    | choice alternatives =>
      rw [Continuation.ofPattern]
      exact runBranches_begins (by simpa [Pattern.regexFree] using hfree) h
    | sequence children =>
      simp only at h
      split at h
      · rename_i stop ctx' hrun
        obtain rfl : stop = next := by simpa using congrArg Prod.fst h
        rw [Continuation.ofPattern]
        exact runAll_begins (by simpa [Pattern.regexFree] using hfree) hrun
      · simp at h
    | optional child =>
      simp only at h
      rw [Continuation.ofPattern]
      split at h
      · rename_i stop ctx' hrun
        obtain rfl : stop = next := by simpa using congrArg Prod.fst h
        rcases run_begins (by simpa [Pattern.regexFree] using hfree) hrun with hchild | ⟨-, hplace⟩
        · exact .inl hchild
        · exact .inr ⟨rfl, hplace⟩
      · obtain rfl : pos = next := by simpa using congrArg Prod.fst h
        exact .inr ⟨rfl, rfl⟩

theorem runAll_begins {ps : List Pattern} {pos next : Nat} {ctx after : Context V}
    (hfree : Pattern.allRegexFree ps) (h : m.runAll input ps pos ctx = (some next, after)) :
    Begins m.caseSensitive input pos next (Continuation.ofPatterns ps) := by
  match ps with
  | [] =>
    simp only [runAll, Prod.mk.injEq, Option.some.injEq] at h
    exact .inr ⟨rfl, by rw [h.1]⟩
  | p :: rest =>
    simp only [Pattern.allRegexFree, Bool.and_eq_true] at hfree
    unfold runAll at h
    split at h
    · rename_i middle ctx' hrun
      rw [Continuation.ofPatterns]
      exact (run_begins hfree.1 hrun).andThen (runAll_begins hfree.2 h)
    · simp at h

theorem runBranches_begins {alternatives : List (Mark × Pattern)} {pos next : Nat}
    {ctx after : Context V} (hfree : Pattern.branchesRegexFree alternatives)
    (h : m.runBranches input alternatives pos ctx = (some next, after)) :
    Begins m.caseSensitive input pos next (Continuation.ofBranches alternatives) := by
  match alternatives with
  | [] => simp [runBranches] at h
  | (mark, p) :: rest =>
    simp only [Pattern.branchesRegexFree, Bool.and_eq_true] at hfree
    unfold runBranches at h
    simp only [Begins, Continuation.ofBranches, continues_append, Bool.or_eq_true]
    split at h
    · rename_i stop ctx' hrun
      obtain rfl : stop = next := by simpa using congrArg Prod.fst h
      rcases run_begins hfree.1 hrun with hbranch | ⟨hopen, hplace⟩
      · exact .inl (.inl hbranch)
      · exact .inr ⟨.inl hopen, hplace⟩
    · rcases runBranches_begins hfree.2 h with hbranch | ⟨hopen, hplace⟩
      · exact .inl (.inr hbranch)
      · exact .inr ⟨.inr hopen, hplace⟩

end

/-! ### All that is left -/

/-- **Looking past a slot never rules out a viable end.**  Where what is left of all enclosing
sequences matches from a position and only white space remains after it, the rest of the pattern can
begin at that position. -/
theorem continues_of_runFrames {follow : List (List Pattern)} {pos stop : Nat} {ctx : Context V}
    (hfree : follow.all Pattern.allRegexFree)
    (h : (m.runFrames input follow pos ctx).1 = some stop)
    (hblank : input.skipBlank stop = input.length) :
    Continuation.continues m.caseSensitive input pos (Continuation.ofFollow follow) := by
  induction follow generalizing pos ctx with
  | nil =>
    simp only [runFrames, Option.some.injEq] at h
    subst h
    simp [Continuation.ofFollow, Continuation.continues, Continuation.beginsAt, hblank]
  | cons siblings outer ih =>
    simp only [List.all_cons, Bool.and_eq_true] at hfree
    unfold runFrames at h
    split at h
    · rename_i next ctx' hrun
      unfold Continuation.ofFollow
      simp only
      rcases runAll_begins hfree.1 hrun with hfirst | ⟨hopen, hplace⟩
      · split_ifs
        · rw [continues_append, hfirst]
          rfl
        · exact hfirst
      · -- the whole frame is passed over, so an outer one decides
        have houter := continues_of_skipBlank_eq hplace (ih hfree.2 h)
        rw [if_pos hopen, continues_append, houter, Bool.or_true]
    · simp at h

/-- What is left after a slot: a frame that can be passed over in three ways, inside one whose first
part can. -/
def passable : List (List Pattern) :=
  [[.text (Text.ofString " "), .optional (.text (Text.ofString "please")),
      .slot ⟨[], true, .both, .none, []⟩],
    [.choice [(1, .text (Text.ofString " and")), (2, .sequence [])],
      .text (Text.ofString " then go")]]

/-- Right after a number, with white space and then a word in other letter case. -/
theorem continues_of_runFrames_passable :
    (runFrames (V := Unit) ⟨some fun _ _ => none, false⟩ (Text.ofString "3  THEN go ") passable 1
      {}).1 = some 10 ∧
    Text.skipBlank (Text.ofString "3  THEN go ") 10 = List.length (Text.ofString "3  THEN go ") ∧
    Continuation.continues false (Text.ofString "3  THEN go ") 1
      (Continuation.ofFollow passable) := by
  have hrun : (runFrames (V := Unit) ⟨some fun _ _ => none, false⟩ (Text.ofString "3  THEN go ")
      passable 1 {}).1 = some 10 := by decide +kernel
  have hblank : Text.skipBlank (Text.ofString "3  THEN go ") 10 =
      List.length (Text.ofString "3  THEN go ") := by decide +kernel
  exact ⟨hrun, hblank, continues_of_runFrames (by decide) hrun hblank⟩

/-! ### Regular expressions -/

/-- The text from `start` to `stop` could fill a slot: it ends with a character of the input, and
neither its first character nor its last is blank. -/
def CouldFill (input : Text) (start stop : Nat) : Prop :=
  Text.startsBlank (input.drop start) = false ∧
    stop ∈ charEnds start (Text.frontList (input.drop start)) ∧
    (between input start stop).endsBlank = false

theorem CouldFill.stop_eq {start stop stop' : Nat} (h : CouldFill input start stop)
    (h' : CouldFill input start stop')
    (hsame : between input start stop = between input start stop') : stop = stop' := by
  have hends := mem_charEnds h.2.1
  have hends' := mem_charEnds h'.2.1
  rw [List.length_drop] at hends hends'
  have hlength := congrArg List.length hsame
  rw [length_between start (by omega), length_between start (by omega)] at hlength
  omega

/-- A matcher whose slots take no text, so that each is offered all there is to offer. -/
def refusing (caseSensitive : Bool) : Matcher V := ⟨some fun _ _ => none, caseSensitive⟩

theorem offerEach_refusing (request : Request) (admissible : Nat → Bool) (candidate : Nat → Text)
    (stops : List Nat) :
    offerEach (V := V) (fun _ _ => none) request admissible candidate stops =
      ((stops.filter admissible).map fun stop => ⟨candidate stop, request, false⟩, none) := by
  induction stops with
  | nil => rfl
  | cons stop rest ih =>
    rw [offerEach, List.filter_cons, ih]
    split_ifs <;> rfl

/-- **What a slot is offered** when it takes nothing: the texts that could fill it and end where the
rest of the pattern can begin. -/
theorem mem_offers_fillSlot_iff {caseSensitive : Bool} {slot : Slot} {start : Nat}
    {ctx : Context V} {offer : Offer} (hnone : ctx.offers = [])
    (hknown : Continuation.anyUnknown (Continuation.ofFollow ctx.follow) = false) :
    offer ∈ ((refusing caseSensitive).fillSlot input slot start ctx).2.offers ↔
      ∃ stop, CouldFill input start stop ∧
        Continuation.continues caseSensitive input stop (Continuation.ofFollow ctx.follow) ∧
        offer = ⟨between input start stop, .ofSlot slot ctx.depth, false⟩ := by
  unfold fillSlot refusing
  simp only [hknown, offerEach_refusing, Bool.false_eq_true, ↓reduceIte]
  split_ifs with hstart
  · simp only [leaveEmpty_offers, Context.addOffers, hnone, List.nil_append, List.mem_map,
      List.mem_filter, Bool.and_eq_true, Bool.not_eq_true', CouldFill, between, hstart.2, true_and]
    constructor
    · rintro ⟨stop, ⟨hstop, hblank, hcontinues⟩, rfl⟩
      exact ⟨stop, ⟨hstop, hblank⟩, hcontinues, rfl⟩
    · rintro ⟨stop, ⟨hstop, hblank⟩, hcontinues, rfl⟩
      exact ⟨stop, ⟨hstop, hblank, hcontinues⟩, rfl⟩
  · rw [leaveEmpty_offers, hnone]
    refine iff_of_false List.not_mem_nil ?_
    rintro ⟨stop, ⟨hblank, hstop, -⟩, -⟩
    have hends := mem_charEnds hstop
    rw [List.length_drop] at hends
    exact hstart ⟨by omega, hblank⟩

/-- A regular expression right after a slot is looked for past the white space, and nothing else
is. -/
theorem continues_ofFollow_regex (caseSensitive : Bool) (input : Text) (pos : Nat) (source : Text)
    (finder : Option Regex.Finder) (rest : List Pattern) (outer : List (List Pattern)) :
    Continuation.continues caseSensitive input pos
        (Continuation.ofFollow ((.regex source finder :: rest) :: outer)) =
      (captureAt finder input (input.skipBlank pos)).isSome := by
  cases finder <;>
    simp [Continuation.ofFollow, Continuation.ofPatterns, Continuation.ofPattern,
      Continuation.andThen, Continuation.continues, Continuation.beginsAt, captureAt]

theorem isSome_captureAt (find : Regex.Finder) (input : Text) (pos : Nat) :
    (captureAt (some find) input pos).isSome = (find (input.drop pos)).isSome :=
  Option.isSome_map

/-- A letter in front of a text could fill a slot. -/
theorem couldFill_letter (text : Text) : CouldFill (0x78 :: text) 0 1 := by
  have hfront : Text.front? (0x78 :: text) = some ('x', 1) := rfl
  refine ⟨?_, ?_, ?_⟩
  · rw [List.drop_zero, Text.startsBlank, hfront]
    decide
  · rw [List.drop_zero, Text.frontList_of_front? hfront]
    exact List.mem_cons_self
  · change Text.endsBlank [0x78] = false
    decide

/-- A new attempt with this left to be matched after it. -/
def awaiting (follow : List (List Pattern)) : Context V where
  follow := follow

theorem mem_offers_awaiting_regex_iff {caseSensitive : Bool} {slot : Slot} {start : Nat}
    {source : Text} {finder : Option Regex.Finder} {rest : List Pattern}
    {outer : List (List Pattern)} {offer : Offer} :
    offer ∈ ((refusing (V := V) caseSensitive).fillSlot input slot start
        (awaiting ((.regex source finder :: rest) :: outer))).2.offers ↔
      ∃ stop, CouldFill input start stop ∧ (captureAt finder input (input.skipBlank stop)).isSome ∧
        offer = ⟨between input start stop, .ofSlot slot 0, false⟩ := by
  rw [mem_offers_fillSlot_iff rfl rfl]
  simp only [awaiting, continues_ofFollow_regex]

/-- **Looking past a slot for a regular expression.**  The slot looks for it after white space, the
match tries it before.  So these come to the same:

* the rest of the pattern is found to begin at each end of the slot where the expression matches;
* the slot is offered the text up to each such end;
* each text that the expression matches, it matches also without the white space at its front. -/
theorem lookahead_regex_tfae (caseSensitive : Bool) (source : Text) (find : Regex.Finder)
    (rest : List Pattern) (outer : List (List Pattern)) :
    List.TFAE [
      ∀ input start stop, CouldFill input start stop →
        (captureAt (some find) input stop).isSome →
        Continuation.continues caseSensitive input stop
          (Continuation.ofFollow ((.regex source (some find) :: rest) :: outer)),
      ∀ slot input start stop, CouldFill input start stop →
        (captureAt (some find) input stop).isSome →
        ⟨between input start stop, .ofSlot slot 0, false⟩ ∈
          ((refusing (V := V) caseSensitive).fillSlot input slot start
            (awaiting ((.regex source (some find) :: rest) :: outer))).2.offers,
      ∀ text : Text, (find text).isSome → (find (text.drop text.blankWidth)).isSome] := by
  tfae_have 1 → 2 := by
    intro h slot input start stop hfill hfind
    have hbegins := h input start stop hfill hfind
    rw [continues_ofFollow_regex] at hbegins
    exact mem_offers_awaiting_regex_iff.2 ⟨stop, hfill, hbegins, rfl⟩
  tfae_have 2 → 3 := by
    intro h text hfind
    -- a letter in front of the text is offered to a slot
    have hfill := couldFill_letter text
    have hoffered := h ⟨[], false, .both, .none, []⟩ _ 0 1 hfill (by rwa [isSome_captureAt])
    obtain ⟨stop, hfill', hcapture, hoffer⟩ := mem_offers_awaiting_regex_iff.1 hoffered
    obtain rfl := hfill.stop_eq hfill' (congrArg Offer.text hoffer)
    rw [isSome_captureAt, Text.skipBlank, ← List.drop_drop] at hcapture
    exact hcapture
  tfae_have 3 → 1 := by
    intro h input start stop _ hfind
    rw [isSome_captureAt] at hfind
    rw [continues_ofFollow_regex, isSome_captureAt, Text.skipBlank, ← List.drop_drop]
    exact h (input.drop stop) hfind
  tfae_finish

/-- White space and then a letter: an expression that needs the white space it begins with. -/
def spacedLetter : Text := Text.ofString "\\s+x"

/-- A slot and, right after it, that expression. -/
def beforeSpacedLetter (find : Regex.Finder) : Pattern :=
  .sequence [.slot ⟨[], false, .both, .none, []⟩, .regex spacedLetter (some find)]

/-- The expression matches right after the number, but the slot is denied that end and every other,
so the pattern does not match although the slot would take any text. -/
theorem not_lookahead_spacedLetter :
    ∃ find, Regex.backtracking.compile (Regex.anchored spacedLetter) = .ok find ∧
      (captureAt (some find) (Text.ofString "3 x") 1).isSome ∧
      (matchAt (V := Text) ⟨some fun text _ => some ⟨0, text⟩, false⟩ (Text.ofString "3 x")
        (beforeSpacedLetter find) 0 {}).1 = none ∧
      ¬ ∀ input start stop, CouldFill input start stop →
        (captureAt (some find) input stop).isSome →
        Continuation.continues false input stop
          (Continuation.ofFollow [[.regex spacedLetter (some find)]]) := by
  have hanswers : (Regex.backtracking.compile (Regex.anchored spacedLetter)).toOption.map
      (fun find => ((find (Text.ofString " x")).isSome, (find (Text.ofString "x")).isSome,
        (matchAt (V := Text) ⟨some fun text _ => some ⟨0, text⟩, false⟩ (Text.ofString "3 x")
          (beforeSpacedLetter find) 0 {}).1)) = some (true, false, none) := by decide +kernel
  cases hcompile : Regex.backtracking.compile (Regex.anchored spacedLetter) with
  | error e => simp [hcompile, Except.toOption] at hanswers
  | ok find =>
    simp only [hcompile, Except.toOption, Option.map_some, Option.some.injEq,
      Prod.mk.injEq] at hanswers
    obtain ⟨hspaced, hletter, hmatch⟩ := hanswers
    refine ⟨find, rfl, (isSome_captureAt _ _ _).trans hspaced, hmatch, fun h => ?_⟩
    have hstable : ∀ text : Text, (find text).isSome →
        (find (text.drop text.blankWidth)).isSome :=
      ((lookahead_regex_tfae (V := Text) false spacedLetter find [] []).out 0 2).1 h
    have hdrop : (Text.ofString " x").drop (Text.blankWidth (Text.ofString " x")) =
        Text.ofString "x" := by decide +kernel
    have hneeds := hstable (Text.ofString " x") hspaced
    rw [hdrop, hletter] at hneeds
    exact Bool.false_ne_true hneeds

end Matcher

end Phrasebook
