import Phrasebook.Proofs.Match.Leaves
import Phrasebook.Proofs.Match.Lookahead

/-!
# White space at the end of the input

White space after an input makes no difference to whether a whole input matches, nor to what fills
its slots, as long as no regular expression looks at it.

The two matches, of an input and of the same input with white space after it, go through the same
places up to the white space at the end.  There they may part: where the first has come to the end of
its input, a gap takes the second past the white space.  But from then on nothing can be matched but
gaps and what may be left out, and it makes no difference where in the white space that happens.

* `Text.SamePlace` : places of the two inputs from which the same is to come.
* `Piece.matchAt_append_blanks` : literal text leads from such places to such places.
* `Continuation.continues_append_blanks` : the rest of a pattern can begin at the same ends of slots.
* `Matcher.run_append_blanks` : a node leads from such places to such places, with the same context.
* `Matcher.matchAll_append_blanks` : a whole input matches with white space after it as without.
-/

namespace Phrasebook

/-! ### Places -/

namespace Text

/-- A place of an input and one of the input with white space after it, from which the same is to
come. -/
inductive SamePlace (input : Text) (blanks : List Char) : Nat → Nat → Prop where
  /-- One place, with more than white space to come. -/
  | inside {i : Nat} (hle : i ≤ input.length) (hmore : input.skipBlank i ≠ input.length) :
      SamePlace input blanks i i
  /-- Two places with nothing but white space to come. -/
  | atEnd {i j : Nat} (hi : input.skipBlank i = input.length)
      (hj : (input ++ ofChars blanks).skipBlank j = (input ++ ofChars blanks).length) :
      SamePlace input blanks i j

variable {input : Text} {blanks : List Char} {i j : Nat}

theorem samePlace_of_le (hblanks : ∀ c ∈ blanks, Unicode.isBlank c) (hi : i ≤ input.length) :
    SamePlace input blanks i i := by
  by_cases hend : input.skipBlank i = input.length
  · refine .atEnd hend ?_
    rw [skipBlank_append hblanks hi, if_pos hend]
  · exact .inside hi hend

theorem SamePlace.le (h : SamePlace input blanks i j) :
    i ≤ input.length ∧ j ≤ (input ++ ofChars blanks).length := by
  cases h with
  | inside hle hmore =>
    refine ⟨hle, ?_⟩
    rw [List.length_append]
    omega
  | atEnd hi hj => exact ⟨le_length_of_skipBlank hi, le_length_of_skipBlank hj⟩

/-- Only white space is left of the one input when only white space is left of the other. -/
theorem SamePlace.skipBlank_eq_length_iff (hblanks : ∀ c ∈ blanks, Unicode.isBlank c)
    (h : SamePlace input blanks i j) :
    (input ++ ofChars blanks).skipBlank j = (input ++ ofChars blanks).length ↔
      input.skipBlank i = input.length := by
  cases h with
  | inside hle hmore =>
    have hlt := Nat.lt_of_le_of_ne (skipBlank_le hle) hmore
    rw [skipBlank_append hblanks hle, if_neg hmore, List.length_append]
    omega
  | atEnd hi hj => exact iff_of_true hj hi

theorem lt_length_of_skipBlank_ne (hle : i ≤ input.length)
    (hmore : input.skipBlank i ≠ input.length) : i < input.length := by
  refine Nat.lt_of_le_of_ne hle ?_
  rintro rfl
  exact hmore (skipBlank_length input)

theorem front?_drop_append (hi : i < input.length) :
    front? ((input ++ ofChars blanks).drop i) = front? (input.drop i) := by
  rw [List.drop_append_of_le_length (Nat.le_of_lt hi)]
  cases hfront : front? (input.drop i) with
  | none =>
    have := List.drop_eq_nil_iff.1 (eq_nil_of_front? hfront)
    omega
  | some front =>
    obtain ⟨c, w⟩ := front
    exact front?_append hfront (isTail_head_of_isValid (isValid_ofChars blanks))

end Text

/-! ### Literal text -/

namespace Piece

variable {caseSensitive : Bool} {input : Text} {blanks : List Char}

theorem mem_of_mem_dropGap {piece : Piece} {pieces : List Piece} (h : piece ∈ dropGap pieces) :
    piece ∈ pieces := by
  unfold dropGap at h
  split at h
  · exact List.mem_cons_of_mem _ h
  · exact h

/-- A character of literal text is not found where nothing but white space is left. -/
theorem matchAt_char_of_skipBlank {c : Char} {rest : List Piece} {pos : Nat}
    (hc : Unicode.isBlank c = false) (hend : input.skipBlank pos = input.length) :
    matchAt caseSensitive input (.char c :: rest) pos = none := by
  cases h : matchAt caseSensitive input (.char c :: rest) pos with
  | none => rfl
  | some next =>
    have hpos : pos = input.length := (skipBlank_of_matchAt_char hc h).symm.trans hend
    rw [hpos, matchAt, List.drop_length] at h
    exact absurd h (by simp [Text.front?])

/-- A gap can always be passed where nothing but white space is left. -/
theorem matchAt_gap_of_skipBlank {rest : List Piece} {pos : Nat}
    (hend : input.skipBlank pos = input.length) :
    matchAt caseSensitive input (.gap :: rest) pos =
      matchAt caseSensitive input rest input.length := by
  rw [matchAt]
  simp only [hend]
  rw [if_neg]
  rintro ⟨heq, hlt, -⟩
  omega

theorem afterBlank_append {pos : Nat} (hpos : pos ≤ input.length) (t : Text) :
    afterBlank (input ++ t) pos = afterBlank input pos := by
  rw [afterBlank, afterBlank, List.take_append_of_le_length hpos]

/-- **Literal text leads from the same place to the same place.** -/
theorem matchAt_append_blanks (hblanks : ∀ c ∈ blanks, Unicode.isBlank c) {pieces : List Piece}
    (hchars : ∀ c, .char c ∈ pieces → Unicode.isBlank c = false) {i j : Nat}
    (h : Text.SamePlace input blanks i j) :
    Option.Rel (Text.SamePlace input blanks) (matchAt caseSensitive input pieces i)
      (matchAt caseSensitive (input ++ Text.ofChars blanks) pieces j) := by
  induction pieces generalizing i j with
  | nil => exact .some h
  | cons piece rest ih =>
    have hrest : ∀ c, .char c ∈ rest → Unicode.isBlank c = false :=
      fun c hc => hchars c (List.mem_cons_of_mem _ hc)
    cases h with
    | inside hle hmore =>
      have hlt := Text.lt_length_of_skipBlank_ne hle hmore
      cases piece with
      | gap =>
        have hskip : (input ++ Text.ofChars blanks).skipBlank i = input.skipBlank i := by
          rw [Text.skipBlank_append hblanks hle, if_neg hmore]
        have hlt' : i < (input ++ Text.ofChars blanks).length := by
          rw [List.length_append]
          omega
        have hnext := Text.samePlace_of_le hblanks (Text.skipBlank_le hle)
        simp only [matchAt, hskip, afterBlank_append hle, hlt, hlt', true_and]
        split_ifs
        · exact .none
        · exact ih hrest hnext
      | char c =>
        simp only [matchAt, Text.front?_drop_append hlt]
        cases hfront : Text.front? (input.drop i) with
        | none => exact .none
        | some front =>
          obtain ⟨d, width⟩ := front
          have hwidth := (Text.front?_width hfront).2
          rw [List.length_drop] at hwidth
          simp only
          split_ifs
          · exact ih hrest (Text.samePlace_of_le hblanks (by omega))
          · exact .none
    | atEnd hi hj =>
      -- a gap takes both to the end, and there is no character to be found
      cases piece with
      | gap =>
        rw [matchAt_gap_of_skipBlank hi, matchAt_gap_of_skipBlank hj]
        exact ih hrest (.atEnd (Text.skipBlank_length _) (Text.skipBlank_length _))
      | char c =>
        have hc := hchars c List.mem_cons_self
        rw [matchAt_char_of_skipBlank hc hi, matchAt_char_of_skipBlank hc hj]
        exact .none

end Piece

/-! ### What may follow a slot -/

namespace Continuation

/-- A way to begin that looks at characters alone: no regular expression, and literal text as it is
read. -/
def Plain : Continuation → Prop
  | .text pieces => ∀ c, .char c ∈ pieces → Unicode.isBlank c = false
  | .regex _ => False
  | .anything | .finish | .unknown => True

mutual

theorem plain_ofPattern {p : Pattern} (hfree : p.regexFree) : ∀ way ∈ (ofPattern p).1, way.Plain := by
  cases p with
  | text content =>
    simp only [ofPattern]
    split_ifs
    · simp
    · intro way hway
      rw [List.mem_singleton.1 hway]
      exact fun c hc => Piece.isBlank_of_mem_ofChars (Piece.mem_of_mem_dropGap hc)
  | regex source finder => simp [Pattern.regexFree] at hfree
  | slot s => simp [ofPattern, Plain]
  | unknown label => simp [ofPattern, Plain]
  | sequence children => exact plain_ofPatterns (by simpa [Pattern.regexFree] using hfree)
  | optional child => exact plain_ofPattern (p := child) (by simpa [Pattern.regexFree] using hfree)
  | choice alternatives => exact plain_ofBranches (by simpa [Pattern.regexFree] using hfree)

theorem plain_ofPatterns {ps : List Pattern} (hfree : Pattern.allRegexFree ps) :
    ∀ way ∈ (ofPatterns ps).1, way.Plain := by
  match ps with
  | [] => simp [ofPatterns]
  | p :: rest =>
    simp only [Pattern.allRegexFree, Bool.and_eq_true] at hfree
    have hp := plain_ofPattern hfree.1
    simp only [ofPatterns, andThen]
    split_ifs
    · intro way hway
      rcases List.mem_append.1 hway with hway | hway
      · exact hp way hway
      · exact plain_ofPatterns hfree.2 way hway
    · exact hp

theorem plain_ofBranches {alternatives : List (Mark × Pattern)}
    (hfree : Pattern.branchesRegexFree alternatives) :
    ∀ way ∈ (ofBranches alternatives).1, way.Plain := by
  match alternatives with
  | [] => simp [ofBranches]
  | (mark, p) :: rest =>
    simp only [Pattern.branchesRegexFree, Bool.and_eq_true] at hfree
    intro way hway
    rw [ofBranches] at hway
    rcases List.mem_append.1 hway with hway | hway
    · exact plain_ofPattern hfree.1 way hway
    · exact plain_ofBranches hfree.2 way hway

end

theorem plain_ofFollow {follow : List (List Pattern)} (hfree : follow.all Pattern.allRegexFree) :
    ∀ way ∈ ofFollow follow, way.Plain := by
  induction follow with
  | nil => simp [ofFollow, Plain]
  | cons siblings outer ih =>
    simp only [List.all_cons, Bool.and_eq_true] at hfree
    have hs := plain_ofPatterns hfree.1
    simp only [ofFollow]
    split_ifs
    · intro way hway
      rcases List.mem_append.1 hway with hway | hway
      · exact hs way hway
      · exact ih hfree.2 way hway
    · exact hs

theorem isSome_eq_of_rel {α β : Type} {r : α → β → Prop} {a : Option α} {b : Option β}
    (h : Option.Rel r a b) : a.isSome = b.isSome := by
  cases h <;> rfl

variable {caseSensitive : Bool} {input : Text} {blanks : List Char}

theorem beginsAt_append_blanks (hblanks : ∀ c ∈ blanks, Unicode.isBlank c) {way : Continuation}
    (hway : way.Plain) {stop : Nat} (hstop : stop ≤ input.length) :
    beginsAt caseSensitive (input ++ Text.ofChars blanks)
        ((input ++ Text.ofChars blanks).skipBlank stop) way =
      beginsAt caseSensitive input (input.skipBlank stop) way := by
  have hle := Text.skipBlank_le hstop
  have hskip := Text.skipBlank_append hblanks hstop
  cases way with
  | regex finder => exact absurd hway (by simp [Plain])
  | unknown => rfl
  | text pieces =>
    have hplace : Text.SamePlace input blanks (input.skipBlank stop)
        ((input ++ Text.ofChars blanks).skipBlank stop) := by
      rw [hskip]
      split_ifs with hend
      · rw [hend]
        exact .atEnd (Text.skipBlank_length _) (Text.skipBlank_length _)
      · exact Text.samePlace_of_le hblanks hle
    exact (isSome_eq_of_rel (Piece.matchAt_append_blanks hblanks hway hplace)).symm
  | anything =>
    rw [beginsAt, beginsAt, hskip]
    split_ifs with hend
    · simp [hend]
    · have hlt := Nat.lt_of_le_of_ne hle hend
      simp only [List.length_append, hlt, decide_true, decide_eq_true_eq]
      omega
  | finish =>
    rw [beginsAt, beginsAt, hskip]
    split_ifs with hend
    · simp [hend]
    · have hlt := Nat.lt_of_le_of_ne hle hend
      rw [beq_eq_false_iff_ne.2 hend, beq_eq_false_iff_ne, List.length_append]
      omega

/-- **The rest of a pattern can begin at the same ends of slots.** -/
theorem continues_append_blanks (hblanks : ∀ c ∈ blanks, Unicode.isBlank c)
    {ways : List Continuation} (hways : ∀ way ∈ ways, way.Plain) {stop : Nat}
    (hstop : stop ≤ input.length) :
    continues caseSensitive (input ++ Text.ofChars blanks) stop ways =
      continues caseSensitive input stop ways := by
  unfold continues
  induction ways with
  | nil => rfl
  | cons way ways ih =>
    rw [List.any_cons, List.any_cons,
      beginsAt_append_blanks hblanks (hways way List.mem_cons_self) hstop,
      ih fun other hother => hways other (List.mem_cons_of_mem _ hother)]

end Continuation

/-! ### Slots -/

theorem Resolution.lengthWithin_le {V : Type} (r : Resolution V) (size : Nat) :
    r.lengthWithin size ≤ size := by
  unfold lengthWithin
  split_ifs <;> omega

namespace Matcher

variable {V : Type}

theorem offerEach_congr {resolve : Resolver V} {request : Request}
    {admissible admissible' : Nat → Bool} {candidate candidate' : Nat → Text} {stops : List Nat}
    (h : ∀ stop ∈ stops, admissible stop = admissible' stop ∧ candidate stop = candidate' stop) :
    offerEach resolve request admissible candidate stops =
      offerEach resolve request admissible' candidate' stops := by
  induction stops with
  | nil => rfl
  | cons stop rest ih =>
    obtain ⟨hadmissible, hcandidate⟩ := h stop List.mem_cons_self
    have hrest := ih fun other hother => h other (List.mem_cons_of_mem _ hother)
    rw [offerEach, offerEach, hadmissible, hcandidate, hrest]

theorem offerEach_append_of_not_admissible {resolve : Resolver V} {request : Request}
    {admissible : Nat → Bool} {candidate : Nat → Text} (stops : List Nat) {more : List Nat}
    (h : ∀ stop ∈ more, admissible stop = false) :
    offerEach resolve request admissible candidate (stops ++ more) =
      offerEach resolve request admissible candidate stops := by
  induction stops with
  | nil =>
    induction more with
    | nil => rfl
    | cons stop more ih =>
      calc offerEach resolve request admissible candidate (stop :: more)
          = offerEach resolve request admissible candidate more := by
            rw [offerEach.eq_2, h stop List.mem_cons_self, if_neg Bool.false_ne_true]
        _ = offerEach resolve request admissible candidate [] :=
            ih fun other hother => h other (List.mem_cons_of_mem _ hother)
  | cons stop rest ih => rw [List.cons_append, offerEach, offerEach, ih]

theorem charEnds_append (t : Text) (pos : Nat) (more : List (Char × Nat)) :
    charEnds pos (t.frontList ++ more) = charEnds pos t.frontList ++ charEnds (pos + t.length) more := by
  induction t using Text.frontList.induct generalizing pos with
  | case1 t hf =>
    rw [Text.eq_nil_of_front? hf, Text.frontList_nil]
    rfl
  | case2 t c w hf ih =>
    have hw := Text.front?_width hf
    have hlen : pos + w + (t.drop w).length = pos + t.length := by
      rw [List.length_drop]
      omega
    rw [Text.frontList_of_front? hf, List.cons_append, charEnds, charEnds, ih, hlen]
    rfl

/-- A text that ends with a character of the white space after it ends blank. -/
theorem endsBlank_of_mem_charEnds {blanks : List Char} (hblanks : ∀ c ∈ blanks, Unicode.isBlank c)
    {pos stop : Nat} (h : stop ∈ charEnds pos (Text.ofChars blanks).frontList) (s : Text) :
    Text.endsBlank (s ++ (Text.ofChars blanks).take (stop - pos)) := by
  induction blanks generalizing pos s with
  | nil => simp [Text.ofChars, Text.frontList_nil, charEnds] at h
  | cons c cs ih =>
    have hc := hblanks c List.mem_cons_self
    have hne := Text.ne_replacement_of_isBlank hc
    have hfront := Text.front?_encodeChar c (Text.ofChars cs)
    rw [Text.ofChars_cons, Text.frontList_of_front? hfront, List.drop_left] at h
    rw [Text.ofChars_cons]
    rcases List.mem_cons.1 h with rfl | h
    · have hself := Text.front?_encodeChar c []
      rw [List.append_nil] at hself
      rw [Nat.add_sub_cancel_left, List.take_left, Text.endsBlank, Text.last?_append hself hne]
      exact hc
    · have hlt := (mem_charEnds h).1
      have hrest := ih (fun d hd => hblanks d (List.mem_cons_of_mem _ hd)) h
        (s ++ Text.encodeChar c)
      have htake : (Text.encodeChar c).take (stop - pos) = Text.encodeChar c :=
        List.take_of_length_le (by omega)
      rwa [List.take_append, htake, Nat.sub_sub, ← List.append_assoc]

theorem between_append {input : Text} {pos stop : Nat} (hpos : pos ≤ input.length)
    (hstop : stop ≤ input.length) (t : Text) :
    between (input ++ t) pos stop = between input pos stop := by
  unfold between
  rw [List.drop_append_of_le_length hpos, List.take_append_of_le_length]
  rw [List.length_drop]
  omega

/-- A text that ends within the white space after the input ends blank. -/
theorem endsBlank_between {input : Text} {blanks : List Char}
    (hblanks : ∀ c ∈ blanks, Unicode.isBlank c) {pos stop : Nat} (hpos : pos ≤ input.length)
    (h : stop ∈ charEnds input.length (Text.ofChars blanks).frontList) :
    (between (input ++ Text.ofChars blanks) pos stop).endsBlank := by
  have hlt := (mem_charEnds h).1
  have hlen : (input.drop pos).length = input.length - pos := List.length_drop
  have htake : (input.drop pos).take (stop - pos) = input.drop pos :=
    List.take_of_length_le (by omega)
  have hsub : stop - pos - (input.length - pos) = stop - input.length := by omega
  rw [between, List.drop_append_of_le_length hpos, List.take_append, htake, hlen, hsub]
  exact endsBlank_of_mem_charEnds hblanks h _

/-- **A slot is offered the same texts.** -/
theorem offerEach_append_blanks (caseSensitive : Bool) {input : Text} {blanks : List Char}
    (hblanks : ∀ c ∈ blanks, Unicode.isBlank c) {ways : List Continuation}
    (hways : ∀ way ∈ ways, way.Plain) {pos : Nat} (hpos : pos ≤ input.length)
    (resolve : Resolver V) (request : Request) :
    offerEach resolve request
        (fun stop => !(between (input ++ Text.ofChars blanks) pos stop).endsBlank &&
          Continuation.continues caseSensitive (input ++ Text.ofChars blanks) stop ways)
        (between (input ++ Text.ofChars blanks) pos)
        (charEnds pos (Text.frontList ((input ++ Text.ofChars blanks).drop pos))) =
      offerEach resolve request
        (fun stop => !(between input pos stop).endsBlank &&
          Continuation.continues caseSensitive input stop ways)
        (between input pos) (charEnds pos (Text.frontList (input.drop pos))) := by
  have hlen : pos + (input.drop pos).length = input.length := by
    rw [List.length_drop]
    omega
  rw [List.drop_append_of_le_length hpos, Text.frontList_append, charEnds_append, hlen,
    offerEach_append_of_not_admissible]
  · -- up to the end of the input, nothing of the white space is seen
    refine offerEach_congr fun stop hstop => ?_
    have hle : stop ≤ input.length := hlen ▸ (mem_charEnds hstop).2
    rw [between_append hpos hle, Continuation.continues_append_blanks hblanks hways hle]
    exact ⟨rfl, rfl⟩
  · -- a text that ends after it is not offered
    intro stop hstop
    rw [endsBlank_between hblanks hpos hstop]
    rfl

/-! ### Runs -/

/-- Two steps fail, or end at the same place, and leave one context. -/
inductive StepsAlike (input : Text) (blanks : List Char) : Step V → Step V → Prop where
  /-- Both fail. -/
  | failed (ctx : Context V) : StepsAlike input blanks (none, ctx) (none, ctx)
  /-- Both match. -/
  | matched {i j : Nat} (h : Text.SamePlace input blanks i j) (ctx : Context V) :
      StepsAlike input blanks (some i, ctx) (some j, ctx)

variable {m : Matcher V} {input : Text} {blanks : List Char} {i j : Nat}

theorem StepsAlike.of_rel {a b : Option Nat} (h : Option.Rel (Text.SamePlace input blanks) a b)
    (ctx : Context V) : StepsAlike input blanks (a, ctx) (b, ctx) := by
  cases h with
  | none => exact .failed ctx
  | some h => exact .matched h ctx

theorem leaveEmpty_append_blanks (h : Text.SamePlace input blanks i j) (slot : Slot)
    (ctx : Context V) : StepsAlike input blanks (leaveEmpty slot i ctx) (leaveEmpty slot j ctx) := by
  unfold leaveEmpty
  split_ifs
  · exact .matched h _
  · exact .failed ctx

/-- Nothing fills a slot where only white space is left. -/
theorem fillSlot_of_skipBlank {input : Text} {pos : Nat} (hend : input.skipBlank pos = input.length)
    (slot : Slot) (ctx : Context V) : m.fillSlot input slot pos ctx = leaveEmpty slot pos ctx := by
  unfold fillSlot
  cases m.resolver with
  | none => rfl
  | some resolve =>
    simp only
    rw [if_neg]
    rintro ⟨hlt, hstart⟩
    rw [Text.skipBlank_of_startsBlank hstart] at hend
    omega

theorem fillSlot_append_blanks (hblanks : ∀ c ∈ blanks, Unicode.isBlank c)
    (h : Text.SamePlace input blanks i j) (slot : Slot) {ctx : Context V}
    (hfollow : ctx.follow.all Pattern.allRegexFree) :
    StepsAlike input blanks (m.fillSlot input slot i ctx)
      (m.fillSlot (input ++ Text.ofChars blanks) slot j ctx) := by
  cases h with
  | atEnd hi hj =>
    rw [fillSlot_of_skipBlank hi, fillSlot_of_skipBlank hj]
    exact leaveEmpty_append_blanks (.atEnd hi hj) slot ctx
  | inside hle hmore =>
    have hempty (ctx : Context V) :
        StepsAlike input blanks (leaveEmpty slot i ctx) (leaveEmpty slot i ctx) :=
      leaveEmpty_append_blanks (.inside hle hmore) slot ctx
    have hlt := Text.lt_length_of_skipBlank_ne hle hmore
    have hlt' : i < (input ++ Text.ofChars blanks).length := by
      rw [List.length_append]
      omega
    have hstart : Text.startsBlank ((input ++ Text.ofChars blanks).drop i) =
        Text.startsBlank (input.drop i) := by
      rw [Text.startsBlank, Text.startsBlank, Text.front?_drop_append hlt]
    unfold fillSlot
    cases m.resolver with
    | none => exact hempty ctx
    | some resolve =>
      have hoffers := offerEach_append_blanks m.caseSensitive hblanks
        (Continuation.plain_ofFollow hfollow) hle resolve (.ofSlot slot ctx.depth)
      unfold between at hoffers
      simp only [hlt, hlt', hstart, true_and, hoffers]
      split_ifs
      · exact .failed _
      · split
        · rename_i length value hoffered
          -- what is taken ends within the input
          obtain ⟨stop, hstop, -, r, -, rfl, -⟩ := offerEach_eq_some hoffered
          have hlast := (mem_charEnds hstop).2
          have hwithin := r.lengthWithin_le ((input.drop i).take (stop - i)).length
          simp only [List.length_take, List.length_drop] at hlast hwithin ⊢
          exact .matched (Text.samePlace_of_le hblanks (by omega)) _
        · exact hempty _
      · exact hempty ctx

mutual

/-- **A node leads from the same place to the same place**, and to one context. -/
theorem run_append_blanks (hblanks : ∀ c ∈ blanks, Unicode.isBlank c) {p : Pattern}
    (hfree : p.regexFree) {i j : Nat} (h : Text.SamePlace input blanks i j) {ctx : Context V}
    (hfollow : ctx.follow.all Pattern.allRegexFree) :
    StepsAlike input blanks (m.run input p i ctx)
      (m.run (input ++ Text.ofChars blanks) p j ctx) := by
  unfold run
  rw [if_neg (Nat.not_lt.2 h.le.1), if_neg (Nat.not_lt.2 h.le.2)]
  cases p with
  | text content =>
    exact .of_rel (Piece.matchAt_append_blanks hblanks (fun _ => Piece.isBlank_of_mem_ofChars) h) ctx
  | regex source finder => simp [Pattern.regexFree] at hfree
  | slot slot => exact fillSlot_append_blanks hblanks h slot hfollow
  | unknown label => exact .failed _
  | choice alternatives =>
    exact runBranches_append_blanks hblanks (by simpa [Pattern.regexFree] using hfree) h hfollow
  | sequence children =>
    have hall := runAll_append_blanks hblanks (by simpa [Pattern.regexFree] using hfree) h hfollow
    simp only
    generalize m.runAll input children i ctx = r at hall ⊢
    generalize m.runAll (input ++ Text.ofChars blanks) children j ctx = s at hall ⊢
    cases hall with
    | failed after => exact .failed _
    | matched hplace after => exact .matched hplace after
  | optional child =>
    have hchild := run_append_blanks hblanks (by simpa [Pattern.regexFree] using hfree) h hfollow
    simp only
    generalize m.run input child i ctx = r at hchild ⊢
    generalize m.run (input ++ Text.ofChars blanks) child j ctx = s at hchild ⊢
    cases hchild with
    | failed after => exact .matched h _
    | matched hplace after => exact .matched hplace after

theorem runAll_append_blanks (hblanks : ∀ c ∈ blanks, Unicode.isBlank c) {ps : List Pattern}
    (hfree : Pattern.allRegexFree ps) {i j : Nat} (h : Text.SamePlace input blanks i j)
    {ctx : Context V} (hfollow : ctx.follow.all Pattern.allRegexFree) :
    StepsAlike input blanks (m.runAll input ps i ctx)
      (m.runAll (input ++ Text.ofChars blanks) ps j ctx) := by
  match ps with
  | [] => exact .matched h ctx
  | p :: rest =>
    simp only [Pattern.allRegexFree, Bool.and_eq_true] at hfree
    have hpush : (ctx.push rest).follow.all Pattern.allRegexFree := by
      simp [Context.push, hfree.2, hfollow]
    have hp := run_append_blanks hblanks hfree.1 h hpush
    have hsame := m.run_follow input p i (ctx.push rest)
    unfold runAll
    generalize m.run input p i (ctx.push rest) = r at hp hsame ⊢
    generalize m.run (input ++ Text.ofChars blanks) p j (ctx.push rest) = s at hp ⊢
    cases hp with
    | failed after => exact .failed _
    | matched hplace after =>
      have hpop : after.pop.follow = ctx.follow := by
        replace hsame : after.follow = rest :: ctx.follow := hsame
        rw [Context.pop, hsame, List.tail_cons]
      exact runAll_append_blanks hblanks hfree.2 hplace (hpop ▸ hfollow)

theorem runBranches_append_blanks (hblanks : ∀ c ∈ blanks, Unicode.isBlank c)
    {alternatives : List (Mark × Pattern)} (hfree : Pattern.branchesRegexFree alternatives)
    {i j : Nat} (h : Text.SamePlace input blanks i j) {ctx : Context V}
    (hfollow : ctx.follow.all Pattern.allRegexFree) :
    StepsAlike input blanks (m.runBranches input alternatives i ctx)
      (m.runBranches (input ++ Text.ofChars blanks) alternatives j ctx) := by
  match alternatives with
  | [] => exact .failed ctx
  | (mark, p) :: rest =>
    simp only [Pattern.branchesRegexFree, Bool.and_eq_true] at hfree
    have hp := run_append_blanks hblanks hfree.1 h hfollow
    have hsame := m.run_follow input p i ctx
    unfold runBranches
    generalize m.run input p i ctx = r at hp hsame ⊢
    generalize m.run (input ++ Text.ofChars blanks) p j ctx = s at hp ⊢
    cases hp with
    | matched hplace after => exact .matched hplace _
    | failed after =>
      -- the next branch starts from where this one did
      have hback : (after.restore ctx).follow = ctx.follow := hsame
      exact runBranches_append_blanks hblanks hfree.2 h (hback ▸ hfollow)

end

/-- **White space at the end of an input makes no difference to a match of all of it.**  Without
regular expressions, and with nothing to follow the pattern, a whole input matches with white space
after it exactly when it matches without, with the same values and the same mark, and both attempts
leave the same context, with the same offers made. -/
theorem matchAll_append_blanks (m : Matcher V) {p : Pattern} (hfree : p.regexFree) (input : Text)
    {blanks : List Char} (hblanks : ∀ c ∈ blanks, Unicode.isBlank c) {ctx : Context V}
    (hfollow : ctx.follow = []) :
    let plain := m.matchAll input p ctx
    let padded := m.matchAll (input ++ Text.ofChars blanks) p ctx
    (padded.1.isSome ↔ plain.1.isSome) ∧
      padded.1.map (·.values) = plain.1.map (·.values) ∧
      padded.1.map (·.mark) = plain.1.map (·.mark) ∧
      padded.2 = plain.2 := by
  have hctx : ctx.follow.all Pattern.allRegexFree := by
    rw [hfollow]
    rfl
  have hrun := run_append_blanks (m := m) hblanks hfree
    (Text.samePlace_of_le hblanks (Nat.zero_le input.length)) hctx
  unfold matchAll
  generalize m.run input p 0 ctx = r at hrun ⊢
  generalize m.run (input ++ Text.ofChars blanks) p 0 ctx = s at hrun ⊢
  cases hrun with
  | failed after => exact ⟨.rfl, rfl, rfl, rfl⟩
  | matched hplace after =>
    simp only [hplace.skipBlank_eq_length_iff hblanks]
    split_ifs
    · exact ⟨.rfl, rfl, rfl, rfl⟩
    · exact ⟨.rfl, rfl, rfl, rfl⟩

/-- A slot, literal text that ends with a gap, and parts that may all be left out. -/
def order : Pattern :=
  .sequence [.slot ⟨[], false, .both, .none, []⟩, .text (Text.ofString " of tea "),
    .optional (.choice [(1, .text (Text.ofString "with ")), (2, .sequence [])]),
    .slot ⟨[], true, .both, .none, []⟩]

/-- The gap at the end matches nothing where the input is over, and the white space where it is
not. -/
theorem matchAll_append_blanks_order :
    order.regexFree ∧ (∀ c ∈ [' ', '\n'], Unicode.isBlank c) ∧
    (takesAll.matchAll (Text.ofString "two cups of tea") order {}).1.map (·.values) =
      some [some (Text.ofString "two cups"), none] ∧
    (takesAll.matchAll (Text.ofString "two cups of tea" ++ Text.ofChars [' ', '\n']) order {}).1.map
      (·.values) = some [some (Text.ofString "two cups"), none] := by
  have hblanks : ∀ c ∈ [' ', '\n'], Unicode.isBlank c := List.all_eq_true.1 rfl
  have hplain : (takesAll.matchAll (Text.ofString "two cups of tea") order {}).1.map (·.values) =
      some [some (Text.ofString "two cups"), none] := by decide +kernel
  have hfree : order.regexFree := by decide
  have hfollow : Context.follow (V := Text) {} = [] := rfl
  have hpadded := matchAll_append_blanks takesAll hfree (Text.ofString "two cups of tea") hblanks
    hfollow
  exact ⟨hfree, hblanks, hplain, hpadded.2.1.trans hplain⟩

end Matcher

end Phrasebook
