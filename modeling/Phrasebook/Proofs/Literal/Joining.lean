import Mathlib.Data.List.Basic
import Phrasebook.Literal.Items
import Phrasebook.Proofs.Text.Blank
import Phrasebook.Scalar

/-!
# Lists put together

Items are put together with commas and conjunctions between neighbours, and the splitter takes them
apart again.

* `Literal.conjunction?_eq_some_iff` : where a text begins with a conjunction.
* `Literal.IsAtom` : texts that can stand as an item of a list, as a condition that can be checked.
* `Literal.Junction`, `Literal.joined` : what may stand between two items, and items put together.
* `Literal.cut_item` : the splitter passes over an item as a whole.
* `Literal.cut_joined` : items put together are cut where they were joined.
* `Literal.splitItems_joined_items` : **the items of a list are those it was put together from**, and
  a list with both conjunctions has none.
-/

namespace Phrasebook

namespace Literal

/-! ### Conjunctions -/

theorem afterConjunction?_eq_some_iff {c : Conjunction} {t rest : Text} :
    afterConjunction? c t = some rest ↔
      ∃ letters b, letters.map lowerByte = c.word ∧ isBlankByte b ∧ t = letters ++ b :: rest := by
  unfold afterConjunction?
  constructor
  · intro h
    split_ifs at h with hletters
    split at h
    · rename_i b more hdrop
      split_ifs at h with hblank
      obtain rfl := Option.some.inj h
      refine ⟨t.take c.word.length, b, hletters, hblank, ?_⟩
      rw [← hdrop, List.take_append_drop]
    · cases h
  · rintro ⟨letters, b, hletters, hblank, rfl⟩
    have hlength : c.word.length = letters.length := by rw [← hletters, List.length_map]
    rw [hlength, List.take_left, if_pos hletters, List.drop_left]
    simp only [hblank, if_true]

theorem conjunction_head {c : Conjunction} {letters : Text} (h : letters.map lowerByte = c.word)
    (t : Text) : (letters ++ t).head?.map lowerByte = c.word.head? := by
  cases letters with
  | nil => cases c <;> cases h
  | cons a letters => exact h ▸ rfl

/-- **A text begins with a conjunction** when it begins with its letters, in any case, and a blank. -/
theorem conjunction?_eq_some_iff {c : Conjunction} {t rest : Text} :
    conjunction? t = some (c, rest) ↔
      ∃ letters b, letters.map lowerByte = c.word ∧ isBlankByte b ∧ t = letters ++ b :: rest := by
  rw [← afterConjunction?_eq_some_iff]
  unfold conjunction?
  cases hand : afterConjunction? .and t with
  | none => cases c <;> simp [hand]
  | some after =>
    cases c with
    | and => simp [hand]
    | or =>
      refine iff_of_false (by simp) fun hor => ?_
      -- the first letters of the two words differ
      obtain ⟨letters, b, hletters, -, rfl⟩ := afterConjunction?_eq_some_iff.1 hand
      obtain ⟨letters', b', hletters', -, hsame⟩ := afterConjunction?_eq_some_iff.1 hor
      have hhead := conjunction_head hletters (b :: after)
      rw [hsame, conjunction_head hletters'] at hhead
      exact absurd hhead (by decide)

/-! ### One byte after the other -/

section Bytes

variable {quoted : Bool} {current rest : Text} {b : UInt8}

theorem cut_quote : cut quoted current (0x22 :: rest) = cut (!quoted) (current ++ [0x22]) rest := by
  rw [cut, if_pos rfl]

theorem cut_inside (hb : b ≠ 0x22) :
    cut true current (b :: rest) = cut true (current ++ [b]) rest := by
  rw [cut, if_neg hb, if_pos rfl]

theorem cut_comma : cut false current (0x2C :: rest) = (cut false [] rest).map (·.push current) := by
  rw [cut, if_neg (by decide), if_neg Bool.false_ne_true, if_pos rfl]

theorem ne_of_isBlankByte (h : isBlankByte b) : b ≠ 0x22 ∧ b ≠ 0x2C := by
  constructor <;> (rintro rfl; exact absurd h (by decide))

theorem cut_conjunction {c : Conjunction} {after : Text} (hb : isBlankByte b)
    (h : conjunction? rest = some (c, after)) :
    cut false current (b :: rest) = (cut false [] after).map (·.pushJoined current c) := by
  obtain ⟨hquote, hcomma⟩ := ne_of_isBlankByte hb
  rw [cut, if_neg hquote, if_neg Bool.false_ne_true, if_neg hcomma, if_pos hb]
  split
  · rename_i word after' h'
    obtain ⟨rfl, rfl⟩ := Prod.mk.inj (Option.some.inj (h.symm.trans h'))
    rfl
  · simp_all

theorem cut_plain (hquote : b ≠ 0x22) (hcomma : b ≠ 0x2C)
    (h : isBlankByte b → conjunction? rest = none) :
    cut false current (b :: rest) = cut false (current ++ [b]) rest := by
  rw [cut, if_neg hquote, if_neg Bool.false_ne_true, if_neg hcomma]
  split_ifs with hb
  · split
    · simp_all
    · rfl
  · rfl

end Bytes

/-! ### Items -/

/-- Whether a text ends inside quotes. -/
def endsQuoted (t : Text) : Bool :=
  t.count quoteByte % 2 == 1

/-- Whether the letters of a conjunction stand at a place of a text as a word: with a blank or the
start of the text before them, and a blank or its end after them. -/
def hasWordAt (c : Conjunction) (t : Text) (i : Nat) : Bool :=
  ((t.drop i).take c.word.length).map lowerByte == c.word &&
    (t.take i).getLast?.all isBlankByte && (t.drop (i + c.word.length)).head?.all isBlankByte

/-- Texts that can stand as an item of a list. -/
structure IsAtom (t : Text) : Prop where
  /-- There is something. -/
  ne_nil : t ≠ []
  /-- There is no white space at the ends. -/
  trim_eq : t.trim = t
  /-- The quotes come in pairs. -/
  paired : endsQuoted t = false
  /-- Commas stand inside quotes. -/
  comma : ∀ i < t.length, t[i]? = some 0x2C → endsQuoted (t.take i)
  /-- Conjunctions that stand as words stand inside quotes. -/
  word : ∀ i < t.length, ∀ c, hasWordAt c t i → endsQuoted (t.take i)

instance (t : Text) : Decidable (IsAtom t) :=
  decidable_of_iff
    (t ≠ [] ∧ t.trim = t ∧ endsQuoted t = false ∧
      (∀ i < t.length, t[i]? = some 0x2C → endsQuoted (t.take i)) ∧
      ∀ i < t.length, ∀ c ∈ [Conjunction.and, .or], hasWordAt c t i → endsQuoted (t.take i))
    ⟨fun ⟨hne, htrim, hpaired, hcomma, hword⟩ =>
        ⟨hne, htrim, hpaired, hcomma, fun i hi c => hword i hi c (by cases c <;> simp)⟩,
      fun h => ⟨h.ne_nil, h.trim_eq, h.paired, h.comma, fun i hi c _ => h.word i hi c⟩⟩

theorem endsQuoted_append (s t : Text) :
    endsQuoted (s ++ t) = (endsQuoted s ^^ endsQuoted t) := by
  unfold endsQuoted
  rw [List.count_append, Nat.add_mod]
  rcases Nat.mod_two_eq_zero_or_one (s.count quoteByte) with hs | hs <;>
    rcases Nat.mod_two_eq_zero_or_one (t.count quoteByte) with ht | ht <;> rw [hs, ht] <;> rfl

theorem endsQuoted_singleton (b : UInt8) : endsQuoted [b] = (b == quoteByte) := by
  by_cases hb : b = quoteByte
  · rw [hb]
    rfl
  · have hnone : List.count quoteByte [b] = 0 :=
      List.count_eq_zero.2 fun hmem => hb (List.mem_singleton.1 hmem).symm
    rw [endsQuoted, hnone, beq_eq_false_iff_ne.2 hb]
    rfl

/-- What may come after an item: nothing, or what begins with a comma or a blank. -/
def StartsJunction (t : Text) : Prop :=
  ∀ b ∈ t.head?, b = 0x2C ∨ b = 0x20

/-- Letters of a conjunction that begin what comes before a junction do not reach into it. -/
theorem prefix_of_startsJunction {c : Conjunction} {letters t rest s : Text}
    (hletters : letters.map lowerByte = c.word) (hrest : StartsJunction rest)
    (h : t ++ rest = letters ++ s) : ∃ u, t = letters ++ u ∧ s = u ++ rest := by
  rcases List.append_eq_append_iff.1 h with ⟨u, rfl, hs⟩ | ⟨u, rfl, hs⟩
  · cases u with
    | nil => exact ⟨[], by simp, by simpa using hs.symm⟩
    | cons b u =>
      -- the byte that begins the junction would be a letter
      have hb : b = 0x2C ∨ b = 0x20 := hrest b (by rw [hs]; rfl)
      have hmem : lowerByte b ∈ c.word := by
        rw [← hletters, List.map_append, List.map_cons]
        simp
      rcases hb with rfl | rfl <;> cases c <;> exact absurd hmem (by decide)
  · exact ⟨u, rfl, hs⟩

section Item

variable {t rest : Text}

/-- No conjunction follows a blank of an item, or its start, outside quotes. -/
theorem IsAtom.conjunction?_eq_none (ht : IsAtom t) (hrest : StartsJunction rest)
    (before : Text) {after : Text} (hsplit : t = before ++ after) (hquoted : endsQuoted before = false)
    (hblank : before.getLast?.all isBlankByte) :
    conjunction? (after ++ rest) = none := by
  by_contra hsome
  obtain ⟨⟨c, more⟩, hc⟩ := Option.ne_none_iff_exists'.1 hsome
  obtain ⟨letters, b, hletters, hb, hafter⟩ := conjunction?_eq_some_iff.1 hc
  obtain ⟨u, rfl, hu⟩ := prefix_of_startsJunction hletters hrest hafter
  have hlength : c.word.length = letters.length := by rw [← hletters, List.length_map]
  have hlt : before.length < t.length := by
    have hpos : 0 < c.word.length := by cases c <;> decide
    rw [hsplit, List.length_append, List.length_append]
    omega
  -- the letters stand in the item, and a blank or the item's end after them
  have hend : u.head?.all isBlankByte := by
    cases u with
    | nil => rfl
    | cons b' u =>
      obtain rfl : b = b' := (List.cons.inj hu).1
      exact hb
  have hword : hasWordAt c t before.length := by
    simp [hasWordAt, hsplit, hlength, hletters, hblank, hend, List.drop_append]
  have hinside := ht.word before.length hlt c hword
  rw [hsplit, List.take_left, hquoted] at hinside
  exact Bool.false_ne_true hinside

/-- **The splitter passes over an item as a whole.** -/
theorem cut_item (ht : IsAtom t) (hrest : StartsJunction rest) (current : Text) :
    cut false current (t ++ rest) = cut false (current ++ t) rest := by
  have hpass (before after : Text) (hsplit : t = before ++ after) :
      cut (endsQuoted before) (current ++ before) (after ++ rest) =
        cut false (current ++ t) rest := by
    induction after generalizing before with
    | nil =>
      rw [List.append_nil] at hsplit
      rw [← hsplit, ht.paired, List.nil_append]
    | cons b after ih =>
      have hnext := ih (before ++ [b]) (by rw [hsplit, List.append_assoc]; rfl)
      rw [endsQuoted_append, endsQuoted_singleton, ← List.append_assoc] at hnext
      rw [List.cons_append]
      by_cases hquote : b = quoteByte
      · rw [hquote, beq_self_eq_true, Bool.xor_true] at hnext
        rw [hquote]
        exact cut_quote.trans hnext
      · rw [beq_eq_false_iff_ne.2 hquote, Bool.xor_false] at hnext
        rw [← hnext]
        cases hquoted : endsQuoted before with
        | true => exact cut_inside hquote
        | false =>
          refine cut_plain hquote ?_ fun hb => ?_
          · rintro rfl
            have hinside := ht.comma before.length (by simp [hsplit]) (by simp [hsplit])
            rw [hsplit, List.take_left, hquoted] at hinside
            exact Bool.false_ne_true hinside
          · have hlast : (before ++ [b]).getLast?.all isBlankByte := by
              rw [List.getLast?_concat]
              exact hb
            refine ht.conjunction?_eq_none hrest (before ++ [b]) ?_ ?_ hlast
            · rw [hsplit, List.append_assoc]
              rfl
            · rw [endsQuoted_append, endsQuoted_singleton, hquoted, beq_eq_false_iff_ne.2 hquote]
              rfl
  have hall := hpass [] t rfl
  rwa [List.append_nil] at hall

/-- A blank in front of an item is passed over with it. -/
theorem cut_blank_item (ht : IsAtom t) (hrest : StartsJunction rest) (current : Text) :
    cut false current (0x20 :: (t ++ rest)) = cut false (current ++ 0x20 :: t) rest := by
  have hnone := ht.conjunction?_eq_none hrest [] rfl rfl rfl
  rw [cut_plain (by decide) (by decide) fun _ => hnone, cut_item ht hrest, List.append_assoc]
  rfl

end Item

/-! ### Items put together -/

/-- What may stand between two items of a list. -/
inductive Junction where
  /-- A comma. -/
  | comma
  /-- A comma and a blank. -/
  | commaBlank
  /-- A conjunction between blanks, its letters in any case. -/
  | conjunction (c : Conjunction) (letters : Text) (h : letters.map lowerByte = c.word)

namespace Junction

/-- The text of a junction. -/
def toText : Junction → Text
  | comma => [0x2C]
  | commaBlank => [0x2C, 0x20]
  | conjunction _ letters _ => 0x20 :: (letters ++ [0x20])

/-- The conjunction of a junction, if it has one. -/
def conjunction? : Junction → Option Conjunction
  | conjunction c _ _ => some c
  | _ => none

/-- The part of a junction that is left in front of the next item when a list is cut there. -/
def lead : Junction → Text
  | commaBlank => [0x20]
  | _ => []

theorem startsJunction (j : Junction) (t : Text) : StartsJunction (j.toText ++ t) := by
  cases j <;> simp [StartsJunction, toText]

theorem trim_lead (j : Junction) (t : Text) : (j.lead ++ t).trim = t.trim := by
  cases j with
  | commaBlank => exact Text.trim_cons_blank t
  | _ => rfl

end Junction

/-- Items after a first one, each with the junction before it. -/
abbrev Others := List (Junction × Text)

/-- Items put together. -/
def joined (first : Text) (others : Others) : Text :=
  first ++ others.flatMap fun (j, t) => j.toText ++ t

/-- The conjunctions used to put items together. -/
def conjunctionsOf (others : Others) : List Conjunction :=
  others.filterMap fun (j, _) => j.conjunction?

theorem startsJunction_others (others : Others) :
    StartsJunction (others.flatMap fun (j, t) => j.toText ++ t) := by
  cases others with
  | nil => simp [StartsJunction]
  | cons other others =>
    obtain ⟨j, t⟩ := other
    rw [List.flatMap_cons, List.append_assoc]
    exact j.startsJunction _

/-- **Items put together are cut where they were joined.** -/
theorem cut_joined {first : Text} {others : Others} (hfirst : IsAtom first)
    (hothers : ∀ other ∈ others, IsAtom other.2) (current : Text) :
    cut false current (joined first others) =
      some ⟨(current ++ first) :: others.map fun (j, t) => j.lead ++ t, conjunctionsOf others⟩ := by
  induction others generalizing first current with
  | nil =>
    rw [joined, cut_item hfirst (startsJunction_others []), List.flatMap_nil, cut]
    rfl
  | cons other others ih =>
    obtain ⟨j, t⟩ := other
    obtain ⟨ht, hothers⟩ := List.forall_mem_cons.1 hothers
    have hrest := startsJunction_others others
    have hnext := ih ht hothers
    rw [joined, cut_item hfirst (startsJunction_others _), List.flatMap_cons]
    cases j with
    | comma =>
      have hafter := hnext []
      change cut false (current ++ first) (0x2C :: joined t others) = _
      rw [cut_comma, hafter]
      rfl
    | commaBlank =>
      have hafter := hnext [0x20]
      change cut false (current ++ first) (0x2C :: 0x20 :: joined t others) = _
      rw [joined, cut_item ht hrest] at hafter
      rw [cut_comma, joined, cut_blank_item ht hrest, List.nil_append]
      exact congrArg (Option.map _) hafter
    | conjunction c letters h =>
      have hafter := hnext []
      have hconjunction : conjunction? (letters ++ 0x20 :: joined t others) =
          some (c, joined t others) :=
        conjunction?_eq_some_iff.2 ⟨letters, 0x20, h, by decide, rfl⟩
      have htext : (Junction.conjunction c letters h).toText ++ t ++
          others.flatMap (fun (j, t) => j.toText ++ t) =
            0x20 :: (letters ++ 0x20 :: joined t others) := by
        simp [Junction.toText, joined]
      rw [htext, cut_conjunction (by decide) hconjunction, hafter]
      rfl

theorem map_trim_joined {first : Text} {others : Others} (hfirst : IsAtom first)
    (hothers : ∀ other ∈ others, IsAtom other.2) :
    (first :: others.map fun (j, t) => j.lead ++ t).map Text.trim =
      first :: others.map Prod.snd := by
  rw [List.map_cons, hfirst.trim_eq, List.map_map]
  refine congrArg (first :: ·) (List.map_congr_left fun other hmem => ?_)
  exact (other.1.trim_lead other.2).trans (hothers other hmem).trim_eq

/-- What the splitter makes of items put together. -/
theorem splitItems_joined {first : Text} {others : Others} (hfirst : IsAtom first)
    (hothers : ∀ other ∈ others, IsAtom other.2) :
    splitItems (joined first others) =
      if .and ∈ conjunctionsOf others ∧ .or ∈ conjunctionsOf others then none
      else some ⟨first :: others.map Prod.snd, !(conjunctionsOf others).contains .or⟩ := by
  have hfull : ((first :: others.map Prod.snd).any List.isEmpty) = false := by
    rw [List.any_eq_false]
    intro t hmem
    rw [List.isEmpty_iff]
    rcases List.mem_cons.1 hmem with rfl | hmem
    · exact hfirst.ne_nil
    · obtain ⟨other, hother, rfl⟩ := List.mem_map.1 hmem
      exact (hothers other hother).ne_nil
  rw [splitItems, cut_joined hfirst hothers]
  simp only [List.nil_append, map_trim_joined hfirst hothers, hfull, Bool.false_eq_true, if_false,
    Bool.and_eq_true, List.contains_iff_mem]

/-- **The items of a list are those it was put together from.** -/
theorem splitItems_joined_items (first : Text) (others : Others)
    (hatoms : ∀ t ∈ first :: others.map Prod.snd, IsAtom t) :
    (¬ (.and ∈ conjunctionsOf others ∧ .or ∈ conjunctionsOf others) →
      ∃ parts, splitItems (joined first others) = some parts ∧
        parts.items = first :: others.map Prod.snd ∧
        (parts.isAnd ↔ .or ∉ conjunctionsOf others)) ∧
    (.and ∈ conjunctionsOf others → .or ∈ conjunctionsOf others →
      splitItems (joined first others) = none) := by
  have hfirst := hatoms first List.mem_cons_self
  have hothers : ∀ other ∈ others, IsAtom other.2 := fun other hmem =>
    hatoms other.2 (List.mem_cons_of_mem _ (List.mem_map_of_mem hmem))
  rw [splitItems_joined hfirst hothers]
  constructor
  · intro hone
    rw [if_neg hone]
    exact ⟨_, rfl, rfl, by simp⟩
  · intro hand hor
    rw [if_pos ⟨hand, hor⟩]

/-- A conjunction and a comma inside quotes, a character whose last byte is that of a blank, and words
that begin or end like a conjunction. -/
def tricky : Text × Others :=
  (Text.ofString "\"a, b and c\"",
    [(.comma, Text.ofString "à"),
      (.conjunction .and (Text.ofString "AND") (by decide +kernel), Text.ofString "band"),
      (.commaBlank, Text.ofString "x orange")])

theorem splitItems_joined_items_tricky :
    joined tricky.1 tricky.2 = Text.ofString "\"a, b and c\",à AND band, x orange" ∧
      ∃ parts, splitItems (joined tricky.1 tricky.2) = some parts ∧ parts.isAnd ∧
        parts.items = [Text.ofString "\"a, b and c\"", Text.ofString "à", Text.ofString "band",
          Text.ofString "x orange"] := by
  have hatoms : ∀ t ∈ tricky.1 :: tricky.2.map Prod.snd, IsAtom t := by decide +kernel
  obtain ⟨hone, -⟩ := splitItems_joined_items tricky.1 tricky.2 hatoms
  obtain ⟨parts, hparts, hitems, hand⟩ := hone (by decide)
  exact ⟨by decide +kernel, parts, hparts, hand.2 (by decide), hitems⟩

end Literal

end Phrasebook
