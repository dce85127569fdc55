import Phrasebook.Proofs.Match.Leaves
import Phrasebook.Proofs.Match.TrailingBlank
import Phrasebook.Proofs.Pattern.Nodes
import Phrasebook.Proofs.Regex.Anchoring

/-!
# How far a match reaches

A match goes on after a regular expression by the length of what that captured.  This is the place
where the capture ends in the input when the capture is what the input holds there: when it was
found right at the position, and is spelled as the input spells it.

* `Matcher.Joined.stop_le_iff` : leaves that lie end to end reach past the input only with a capture
  that does.
* `Matcher.stop_le_length_iff_of_matchAt` : a match ends inside the input exactly when its captures
  lie there, and a capture from a well-formed rest of the input does in every dialect that spells
  pieces of what it searches.
* `Matcher.capturesConsumed_iff_findsPrefixes` : the text captured is the text passed over exactly
  when all that is found begins the text searched.  In a dialect that reads anchored sources as they
  are written this is so for every source that has no second alternative, once it is anchored.
-/

namespace Phrasebook

/-! ### Literal text -/

namespace Piece

variable {caseSensitive : Bool} {input : Text}

/-- Literal text is never matched backwards, nor past the end of the input. -/
theorem bounds_of_matchAt {pieces : List Piece} {pos stop : Nat}
    (h : matchAt caseSensitive input pieces pos = some stop) :
    pos ≤ stop ∧ (pos ≤ input.length → stop ≤ input.length) := by
  induction pieces generalizing pos with
  | nil =>
    obtain rfl := Option.some.inj h
    exact ⟨Nat.le_refl pos, id⟩
  | cons piece rest ih =>
    cases piece with
    | gap =>
      simp only [matchAt] at h
      split at h
      · cases h
      · have hrest := ih h
        exact ⟨Nat.le_trans (Nat.le_add_right _ _) hrest.1,
          fun hpos => hrest.2 (Text.skipBlank_le hpos)⟩
    | char c =>
      simp only [matchAt] at h
      split at h
      · cases h
      · rename_i width hfront
        have hwidth := Text.front?_width hfront
        rw [List.length_drop] at hwidth
        split at h
        · have hrest := ih h
          exact ⟨by omega, fun _ => hrest.2 (by omega)⟩
        · cases h

end Piece

/-! ### Captures -/

namespace Capture

/-- A capture that is no longer than the rest of the input at its offset. -/
def Fits (input : Text) (capture : Capture) : Prop :=
  capture.text.length ≤ (input.drop capture.offset).length

instance (input : Text) (capture : Capture) : Decidable (capture.Fits input) :=
  inferInstanceAs (Decidable (_ ≤ _))

theorem text_ofFound (offset : Nat) (found : Regex.Found) :
    (ofFound offset found).text = found.text := by
  rw [text, ofFound, Regex.Found.text, List.head?_map]

end Capture

namespace Matcher

variable {V : Type} {m : Matcher V} {input : Text} {depth : Int} {p : Pattern} {start stop : Nat}
  {leaves : List (Leaf V)} {marks : List Mark}

/-- A leaf does not go back, and inside the input only a capture takes it outside. -/
structure Leaf.Bounded (input : Text) (leaf : Leaf V) : Prop where
  /-- It stops where it starts or later. -/
  le : leaf.start ≤ leaf.stop
  /-- It stays inside the input if what it captured does. -/
  stop_le : leaf.start ≤ input.length → (∀ c, leaf.capture? = some c → c.Fits input) →
    leaf.stop ≤ input.length

theorem Derives.bounded (h : Derives m input depth p start stop leaves marks) :
    ∀ leaf ∈ leaves, leaf.Bounded input := by
  induction h with
  | text h =>
    rw [List.forall_mem_singleton]
    have hbounds := Piece.bounds_of_matchAt h
    exact ⟨hbounds.1, fun hstart _ => hbounds.2 hstart⟩
  | regex h =>
    rw [List.forall_mem_singleton]
    refine ⟨Nat.le_add_right _ _, fun hstart hfits => ?_⟩
    have hfit := hfits _ rfl
    rw [Capture.Fits, offset_of_captureAt h, List.length_drop] at hfit
    simp only [Leaf.start, Leaf.stop] at hstart ⊢
    omega
  | @filled slot start last resolve r _ hlt hle _ _ =>
    rw [List.forall_mem_singleton]
    have hwithin := r.lengthWithin_le (last - start)
    exact ⟨Nat.le_add_right _ _, fun _ _ => by simp only [Leaf.stop]; omega⟩
  | empty _ =>
    rw [List.forall_mem_singleton]
    exact ⟨Nat.le_refl _, fun hstart _ => hstart⟩
  | done => simp
  | next _ _ ih ih' => exact List.forall_mem_append.2 ⟨ih, ih'⟩
  | taken _ ih => exact ih
  | skipped => simp
  | branch _ _ ih => exact ih

theorem Leaf.stop_le_iff {leaf : Leaf V} (hbounded : leaf.Bounded input)
    (hcaptured : leaf.Captured) (hstart : leaf.start ≤ input.length) :
    leaf.stop ≤ input.length ↔ ∀ c, leaf.capture? = some c → c.Fits input := by
  refine ⟨fun hstop c hc => ?_, hbounded.stop_le hstart⟩
  obtain ⟨hoffset, hlength⟩ := hcaptured c hc
  rw [Capture.Fits, hoffset, List.length_drop]
  omega

theorem forall_mem_captures_cons {leaf : Leaf V} {motive : Capture → Prop} :
    (∀ c ∈ captures (leaf :: leaves), motive c) ↔
      (∀ c, leaf.capture? = some c → motive c) ∧ ∀ c ∈ captures leaves, motive c := by
  rw [captures, captures, List.filterMap_cons]
  cases leaf.capture? <;> simp

namespace Joined

theorem start_le (h : Joined start leaves stop) (hbounded : ∀ leaf ∈ leaves, leaf.Bounded input) :
    start ≤ stop := by
  induction leaves generalizing start with
  | nil => exact Nat.le_of_eq h
  | cons leaf rest ih =>
    rw [List.forall_mem_cons] at hbounded
    obtain ⟨rfl, hrest⟩ := h
    exact Nat.le_trans hbounded.1.le (ih hrest hbounded.2)

/-- **Leaves that lie end to end** reach past the input only with a capture that does. -/
theorem stop_le_iff (h : Joined start leaves stop) (hbounded : ∀ leaf ∈ leaves, leaf.Bounded input)
    (hcaptured : ∀ leaf ∈ leaves, leaf.Captured) (hstart : start ≤ input.length) :
    stop ≤ input.length ↔ ∀ c ∈ captures leaves, c.Fits input := by
  induction leaves generalizing start with
  | nil =>
    obtain rfl : start = stop := h
    simp [captures, hstart]
  | cons leaf rest ih =>
    rw [List.forall_mem_cons] at hbounded hcaptured
    obtain ⟨rfl, hrest⟩ := h
    rw [forall_mem_captures_cons, ← leaf.stop_le_iff hbounded.1 hcaptured.1 hstart]
    constructor
    · intro hstop
      have hmiddle := Nat.le_trans (hrest.start_le hbounded.2) hstop
      exact ⟨hmiddle, (ih hrest hbounded.2 hcaptured.2 hmiddle).1 hstop⟩
    · rintro ⟨hmiddle, hfits⟩
      exact (ih hrest hbounded.2 hcaptured.2 hmiddle).2 hfits

end Joined

/-- A capture is what a regular expression of the tree captures at its offset. -/
theorem Derives.exists_node (h : Derives m input depth p start stop leaves marks) :
    ∀ c ∈ captures leaves, ∃ source finder, p.HasNode (.regex source finder) ∧
      captureAt finder input c.offset = some c := by
  induction h with
  | text _ => simp [captures, Leaf.capture?]
  | @regex source finder start capture hc =>
    intro c hmem
    obtain rfl : c = capture := by simpa [captures, Leaf.capture?] using hmem
    exact ⟨source, finder, .root _, by rw [offset_of_captureAt hc, hc]⟩
  | filled _ _ _ _ _ => simp [captures, Leaf.capture?]
  | empty _ => simp [captures, Leaf.capture?]
  | done => simp [captures]
  | next _ _ ih ih' =>
    intro c hmem
    rw [captures_append, List.mem_append] at hmem
    rcases hmem with hmem | hmem
    · obtain ⟨source, finder, hnode, hc⟩ := ih c hmem
      exact ⟨source, finder, .child List.mem_cons_self hnode, hc⟩
    · obtain ⟨source, finder, hnode, hc⟩ := ih' c hmem
      cases hnode with
      | child hchild hnode =>
        exact ⟨source, finder, .child (List.mem_cons_of_mem _ hchild) hnode, hc⟩
  | taken _ ih =>
    intro c hmem
    obtain ⟨source, finder, hnode, hc⟩ := ih c hmem
    exact ⟨source, finder, .inside hnode, hc⟩
  | skipped => simp [captures]
  | branch hbranch _ ih =>
    intro c hmem
    obtain ⟨source, finder, hnode, hc⟩ := ih c hmem
    exact ⟨source, finder, .branch hbranch hnode, hc⟩

/-! ### Compiled trees -/

theorem exists_found_of_captureAt {find : Regex.Finder} {pos : Nat} {c : Capture}
    (h : captureAt (some find) input pos = some c) :
    ∃ found, find (input.drop pos) = some found ∧ c.offset = pos ∧ c.text = found.text := by
  obtain ⟨found, hfound, rfl⟩ := Option.map_eq_some_iff.1 h
  exact ⟨found, hfound, rfl, Capture.text_ofFound pos found⟩

/-- What is captured from a well-formed rest of the input is a piece of that rest. -/
theorem fits_of_captureAt {dialect : Regex.Dialect} {source : Text} {find : Regex.Finder}
    {c : Capture} (hspells : dialect.SpellsPieces)
    (hcompile : dialect.compile (Regex.anchored source) = .ok find)
    (hvalid : Text.isValid (input.drop c.offset))
    (h : captureAt (some find) input c.offset = some c) : c.Fits input := by
  obtain ⟨found, hfound, -, htext⟩ := exists_found_of_captureAt h
  rw [Capture.Fits, htext]
  exact (hspells.infix_of_find hcompile hvalid hfound).length_le

theorem le_length_of_run {ctx after : Context V}
    (h : m.run input p start ctx = (some stop, after)) : start ≤ input.length := by
  unfold run at h
  split_ifs at h with hstart
  · cases h
  · omega

/-- **Where a match ends.**  It never ends before its offset.  It ends inside the input exactly when
no capture is longer than the rest of the input it was made from.  What a compiled tree captures
from a well-formed rest is not, in any dialect that spells pieces of what it searches; from other
bytes it may be, since such a dialect spells each of them as the replacement character. -/
theorem stop_le_length_iff_of_matchAt {offset : Int} {ctx after : Context V}
    (h : m.matchAt input p offset ctx = (some stop, after)) :
    offset ≤ stop ∧ ∃ gained, after.captures = ctx.captures ++ gained ∧
      (stop ≤ input.length ↔ ∀ c ∈ gained, c.Fits input) ∧
      ∀ (dialect : Regex.Dialect) registry pattern, dialect.SpellsPieces →
        Pattern.compile dialect registry pattern = .ok p →
          ∀ c ∈ gained, Text.isValid (input.drop c.offset) → c.Fits input := by
  unfold matchAt at h
  split_ifs at h with hoffset
  · cases h
  · have hstart := le_length_of_run h
    obtain ⟨leaves, marks, hderives, haccounts⟩ := exists_derives_of_run h
    have hle := hderives.joined.start_le hderives.bounded
    refine ⟨by omega, captures leaves, haccounts.captures, ?_, ?_⟩
    · exact hderives.joined.stop_le_iff hderives.bounded hderives.captured hstart
    · intro dialect registry pattern hspells hcompile c hmem hvalid
      obtain ⟨source, finder, hnode, hcapture⟩ := hderives.exists_node c hmem
      obtain ⟨find, rfl, hfind⟩ := Pattern.allCompiled_of_compile hcompile source finder hnode
      exact fits_of_captureAt hspells hfind hvalid hcapture

/-- A pattern that captures one character. -/
def anyCharacter : Text := Text.ofString "<.>"

/-- One byte that spells no character is captured as three, so the match ends outside the input. -/
theorem not_stop_le_length_anyCharacter :
    Regex.backtracking.SpellsPieces ∧ ∃ p after,
      Pattern.compile Regex.backtracking Registry.empty anyCharacter = .ok p ∧
      matchAt (V := Text) ⟨none, false⟩ [0xFF] p 0 {} = (some 3, after) ∧
      ∃ c ∈ after.captures, ¬ c.Fits [0xFF] ∧
        Text.isValid (([0xFF] : Text).drop c.offset) = false := by
  have hanswer : (Pattern.compile Regex.backtracking Registry.empty anyCharacter).toOption.map
      (fun p => (matchAt (V := Text) ⟨none, false⟩ [0xFF] p 0 {}).1) = some (some 3) := by
    decide +kernel
  obtain ⟨p, hp, hstop⟩ := Option.map_eq_some_iff.1 hanswer
  have hcompile := Pattern.toOption_eq_some.1 hp
  have hmatch : matchAt (V := Text) ⟨none, false⟩ [0xFF] p 0 {} =
      (some 3, (matchAt (V := Text) ⟨none, false⟩ [0xFF] p 0 {}).2) := Prod.ext hstop rfl
  obtain ⟨-, gained, hcaptures, hiff, hvalid⟩ := stop_le_length_iff_of_matchAt hmatch
  obtain ⟨c, hmem, hfits⟩ : ∃ c ∈ gained, ¬ c.Fits [0xFF] := by
    by_contra hnone
    push Not at hnone
    exact absurd (hiff.2 hnone) (by decide)
  have hspells := Regex.spellsPieces_backtracking
  refine ⟨hspells, p, _, hcompile, hmatch, c, hcaptures ▸ hmem, hfits, ?_⟩
  rw [← Bool.not_eq_true]
  exact fun h => hfits (hvalid _ _ _ hspells hcompile c hmem h)

/-! ### Text captured and text passed over -/

/-- A position of a well-formed text between two of its characters, or at one of its ends. -/
structure OnBoundary (input : Text) (pos : Nat) : Prop where
  /-- What comes before the position is well formed. -/
  before : Text.isValid (input.take pos)
  /-- So is what comes after it. -/
  after : Text.isValid (input.drop pos)

/-- What a regular expression captures is what its match passes over, wherever it is matched. -/
def CapturesConsumed (V : Type) (source : Text) (finder : Option Regex.Finder) : Prop :=
  ∀ (m : Matcher V) (input : Text) (offset stop : Nat) (ctx after : Context V),
    OnBoundary input offset →
    m.matchAt input (.regex source finder) offset ctx = (some stop, after) →
      ∃ c, after.captures = ctx.captures ++ [c] ∧ c.offset = offset ∧
        c.text = between input offset stop

/-- All that is found in a well-formed text begins the text. -/
def FindsPrefixes (find : Regex.Finder) : Prop :=
  ∀ text found, Text.isValid text → find text = some found → found.text <+: text

theorem matchAt_regex_eq_some_iff {source : Text} {find : Regex.Finder} {offset : Nat}
    {ctx after : Context V} :
    m.matchAt input (.regex source (some find)) offset ctx = (some stop, after) ↔
      offset ≤ input.length ∧ ∃ found, find (input.drop offset) = some found ∧
        stop = offset + found.text.length ∧
        after = ctx.addCapture (Capture.ofFound offset found) := by
  rw [matchAt, if_neg (by omega), Int.toNat_natCast, run]
  split_ifs with hlt
  · have hle : ¬ offset ≤ input.length := by omega
    simp [hle]
  · have hle : offset ≤ input.length := by omega
    simp only [captureAt, hle, true_and]
    cases find (input.drop offset) with
    | none => simp
    | some found => simp [Capture.text_ofFound, eq_comm]

theorem capturesConsumed_iff {source : Text} {find : Regex.Finder} :
    CapturesConsumed V source (some find) ↔ FindsPrefixes find := by
  constructor
  · intro h text found hvalid hfound
    -- a text is searched as a whole when the expression is matched at its start
    have hmatch : matchAt (V := V) ⟨none, false⟩ text (.regex source (some find)) (0 : Nat) {} =
        (some found.text.length, Context.addCapture {} (Capture.ofFound 0 found)) :=
      matchAt_regex_eq_some_iff.2 ⟨Nat.zero_le _, found, hfound, (Nat.zero_add _).symm, rfl⟩
    have hboundary : OnBoundary text 0 := ⟨Text.isValid_iff.2 ⟨[], rfl⟩, hvalid⟩
    obtain ⟨c, hcaptures, -, htext⟩ := h _ text 0 _ _ _ hboundary hmatch
    obtain rfl : Capture.ofFound 0 found = c := by simpa [Context.addCapture] using hcaptures
    rw [Capture.text_ofFound] at htext
    rw [htext]
    exact List.take_prefix _ _
  · intro h m input offset stop ctx after hboundary hmatch
    obtain ⟨-, found, hfound, rfl, rfl⟩ := matchAt_regex_eq_some_iff.1 hmatch
    refine ⟨Capture.ofFound offset found, rfl, rfl, ?_⟩
    have hprefix := h _ found hboundary.after hfound
    rw [Capture.text_ofFound, between, Nat.add_sub_cancel_left]
    exact List.prefix_iff_eq_take.1 hprefix

/-- **The text captured and the text passed over.**  They are the same, wherever the regular
expression of a compiled tree is matched, exactly when all that its anchored source finds begins the
text searched.  In a dialect that reads anchored sources as they are written, what is found does
begin it where the match does not stray from the start; so it is enough that the source has no
second alternative, once it is anchored. -/
theorem capturesConsumed_iff_findsPrefixes {dialect : Regex.Dialect} {registry : Registry}
    {pattern source : Text} {finder : Option Regex.Finder}
    (h : Pattern.compile dialect registry pattern = .ok p)
    (hnode : p.HasNode (.regex source finder)) :
    ∃ find, dialect.compile (Regex.anchored source) = .ok find ∧ finder = some find ∧
      (CapturesConsumed V source finder ↔ FindsPrefixes find) ∧
      ∀ alternatives, dialect.ReadsAnchored alternatives →
        (∀ text found, Text.isValid text → find text = some found →
          found.text <+: text ∨ Regex.Strays (alternatives source) text.chars) ∧
        ((alternatives source).length = 1 → CapturesConsumed V source finder) := by
  obtain ⟨find, rfl, hfind⟩ := Pattern.allCompiled_of_compile h source finder hnode
  refine ⟨find, hfind, rfl, capturesConsumed_iff, fun alternatives hreads => ⟨?_, fun hone => ?_⟩⟩
  · intro text found hvalid hfound
    exact hreads.prefix_or_strays hfind hvalid hfound
  · rw [capturesConsumed_iff]
    intro text found hvalid hfound
    exact hreads.prefix_of_length_eq_one hone hfind hvalid hfound

/-- A source whose parentheses end the group around it and begin another. -/
def twoGroups : Text := Text.ofString "a)|(?:b"

/-- The regular expression that a tree is, if it is one. -/
def regexOf? : Pattern → Option (Text × Option Regex.Finder)
  | .regex source finder => some (source, finder)
  | _ => none

theorem regexOf?_eq_some {source : Text} {finder : Option Regex.Finder}
    (h : regexOf? p = some (source, finder)) : p = .regex source finder := by
  unfold regexOf? at h
  split at h
  · obtain ⟨rfl, rfl⟩ := Prod.mk.inj (Option.some.inj h)
    rfl
  · cases h

/-- The letter of the second group is found where the match did not start: it is captured, and
another one is passed over. -/
theorem not_capturesConsumed_twoGroups :
    Regex.backtracking.ReadsAnchored Regex.anchoredAlternatives ∧ ∃ p finder c,
      Pattern.compile Regex.backtracking Registry.empty
        (Text.ofString "<" ++ twoGroups ++ Text.ofString ">") = .ok p ∧
      p.HasNode (.regex twoGroups finder) ∧
      captureAt finder (Text.ofString "xxb") 0 = some c ∧ c.text = Text.ofString "b" ∧
      Regex.Strays (Regex.anchoredAlternatives twoGroups) (Text.chars (Text.ofString "xxb")) ∧
      ¬ CapturesConsumed Text twoGroups finder := by
  have hanswer : ((Pattern.compile Regex.backtracking Registry.empty
      (Text.ofString "<" ++ twoGroups ++ Text.ofString ">")).toOption.bind regexOf?).bind
        (fun regex => (captureAt regex.2 (Text.ofString "xxb") 0).map fun c => (regex.1, c.text)) =
      some (twoGroups, Text.ofString "b") := by decide +kernel
  obtain ⟨⟨source, finder⟩, hregex, hcaptured⟩ := Option.bind_eq_some_iff.1 hanswer
  obtain ⟨p, hp, hregex⟩ := Option.bind_eq_some_iff.1 hregex
  obtain rfl := regexOf?_eq_some hregex
  obtain ⟨c, hcapture, hpair⟩ := Option.map_eq_some_iff.1 hcaptured
  obtain ⟨rfl, htext⟩ := Prod.mk.inj hpair
  have hcompile := Pattern.toOption_eq_some.1 hp
  obtain ⟨find, -, rfl, hiff, hall⟩ :=
    capturesConsumed_iff_findsPrefixes (V := Text) hcompile (.root _)
  obtain ⟨found, hfound, -, hfoundText⟩ := exists_found_of_captureAt hcapture
  have hvalid : Text.isValid (Text.ofString "xxb") := Text.isValid_iff.2 ⟨_, rfl⟩
  have hnot : ¬ found.text <+: Text.ofString "xxb" := by
    rw [← hfoundText, htext]
    decide
  have hreads := Regex.readsAnchored_backtracking
  refine ⟨hreads, _, _, c, hcompile, .root _, hcapture, htext, ?_, fun hconsumed => ?_⟩
  · exact ((hall _ hreads).1 _ found hvalid hfound).resolve_left hnot
  · exact hnot (hiff.1 hconsumed _ found hvalid hfound)

end Matcher

end Phrasebook
