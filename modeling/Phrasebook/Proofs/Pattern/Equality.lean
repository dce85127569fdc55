import Mathlib.Data.List.Forall2
import Phrasebook.Pattern.Compile

/-!
# Equal trees

`Pattern.equal?` walks two trees in step.  Here it is read as a relation, one equation for each kind
of node, and carried over to the lists of items that trees are made of.

* `Pattern.Same` : the comparison says yes.
* `Pattern.same_sequence`, `Pattern.same_choice` : it does so for the parts one by one.
* `Pattern.same_ofItems` : trees of items are the same exactly when their items are.
-/

namespace Phrasebook

namespace Pattern

/-- The comparison of two trees says that they are the same. -/
def Same (a b : Pattern) : Prop := equal? a b = some true

/-- Two branches have the same mark and the same tree. -/
def SameBranch (a b : Mark × Pattern) : Prop := a.1 = b.1 ∧ Same a.2 b.2

/-! ### Kinds of nodes -/

theorem not_same_of_eq {a b : Pattern} (h : equal? a b = some false) : ¬ Same a b := by
  rw [Same, h]
  simp

theorem equalAll?_eq_true {as bs : List Pattern} (h : as.length = bs.length) :
    equalAll? as bs = some true ↔ List.Forall₂ Same as bs := by
  induction as generalizing bs with
  | nil =>
    obtain rfl := List.eq_nil_of_length_eq_zero h.symm
    exact iff_of_true rfl .nil
  | cons a as ih =>
    cases bs with
    | nil => simp at h
    | cons b bs =>
      rw [List.forall₂_cons, equalAll?, Same, ← ih (by simpa using h)]
      split
      · simp_all
      · simp_all

theorem equalBranches?_eq_true {as bs : List (Mark × Pattern)} (h : as.length = bs.length) :
    equalBranches? as bs = some true ↔ List.Forall₂ SameBranch as bs := by
  induction as generalizing bs with
  | nil =>
    obtain rfl := List.eq_nil_of_length_eq_zero h.symm
    exact iff_of_true rfl .nil
  | cons a as ih =>
    cases bs with
    | nil => simp at h
    | cons b bs =>
      obtain ⟨m, a⟩ := a
      obtain ⟨n, b⟩ := b
      rw [List.forall₂_cons, equalBranches?, SameBranch, Same, ← ih (by simpa using h)]
      split_ifs with hm
      · split
        · simp_all
        · simp_all
      · simp [hm]

theorem same_sequence {as bs : List Pattern} :
    Same (.sequence as) (.sequence bs) ↔ List.Forall₂ Same as bs := by
  change (if as.length = bs.length then equalAll? as bs else some false) = some true ↔ _
  split_ifs with h
  · exact equalAll?_eq_true h
  · constructor
    · intro hf
      simp at hf
    · intro hf
      exact absurd hf.length_eq h

theorem same_choice {as bs : List (Mark × Pattern)} :
    Same (.choice as) (.choice bs) ↔ List.Forall₂ SameBranch as bs := by
  change (if as.length = bs.length then equalBranches? as bs else some false) = some true ↔ _
  split_ifs with h
  · exact equalBranches?_eq_true h
  · constructor
    · intro hf
      simp at hf
    · intro hf
      exact absurd hf.length_eq h

theorem same_optional {a b : Pattern} : Same (.optional a) (.optional b) ↔ Same a b := Iff.rfl

theorem same_text {a : Pattern} {content : Text} :
    Same a (.text content) ↔ a = .text content := by
  cases a with
  | text content' =>
    change some (content' == content) = some true ↔ _
    simp
  | _ => exact iff_of_false (not_same_of_eq rfl) Pattern.noConfusion

theorem same_regex {a : Pattern} {source : Text} {finder : Option Regex.Finder} :
    Same a (.regex source finder) ↔ ∃ f, a = .regex source f := by
  cases a with
  | regex source' finder' =>
    change some (source' == source) = some true ↔ _
    simp
  | _ => exact iff_of_false (not_same_of_eq rfl) fun ⟨_, h⟩ => Pattern.noConfusion h

theorem same_slot {a : Pattern} {s : Slot} :
    Same a (.slot s) ↔ ∃ s', a = .slot s' ∧ sameSlot s' s := by
  cases a with
  | slot s' =>
    change some (sameSlot s' s) = some true ↔ _
    simp
  | _ => exact iff_of_false (not_same_of_eq rfl) fun ⟨_, h, _⟩ => Pattern.noConfusion h

theorem exists_of_same_sequence {a : Pattern} {bs : List Pattern} (h : Same a (.sequence bs)) :
    ∃ as, a = .sequence as ∧ List.Forall₂ Same as bs := by
  cases a with
  | sequence as => exact ⟨as, rfl, same_sequence.1 h⟩
  | _ => exact absurd h (not_same_of_eq rfl)

theorem exists_of_same_optional {a b : Pattern} (h : Same a (.optional b)) :
    ∃ a', a = .optional a' ∧ Same a' b := by
  cases a with
  | optional a' => exact ⟨a', rfl, same_optional.1 h⟩
  | _ => exact absurd h (not_same_of_eq rfl)

theorem exists_of_same_choice {a : Pattern} {bs : List (Mark × Pattern)} (h : Same a (.choice bs)) :
    ∃ as, a = .choice as ∧ List.Forall₂ SameBranch as bs := by
  cases a with
  | choice as => exact ⟨as, rfl, same_choice.1 h⟩
  | _ => exact absurd h (not_same_of_eq rfl)

theorem not_same_unknown {a : Pattern} {label : Text} : ¬ Same a (.unknown label) := by
  cases a with
  | unknown label' =>
    intro h
    change none = some true at h
    simp at h
  | _ => exact not_same_of_eq rfl

/-! ### Lists of items -/

/-- A tree that can stand in a list of items: it is neither a sequence nor an empty text. -/
def isItem : Pattern → Bool
  | .text content => !content.isEmpty
  | .sequence _ => false
  | _ => true

/-- Literal text. -/
def isText : Pattern → Bool
  | .text _ => true
  | _ => false

/-- A tree that is written between brackets or percent signs. -/
def isGroup : Pattern → Bool
  | .optional _ | .choice _ | .regex _ _ | .slot _ => true
  | _ => false

/-- Whether all trees of a list can stand in it: they are items, and no two neighbours are both
text. -/
@[simp]
def separated : List Pattern → Bool
  | [] => true
  | [p] => p.isItem
  | p :: q :: rest => p.isItem && !(p.isText && q.isText) && separated (q :: rest)

/-- The items that a tree is made of. -/
def itemList : Pattern → List Pattern
  | .text [] => []
  | .sequence children => children
  | p => [p]

theorem itemList_of_isItem {p : Pattern} (h : p.isItem) : p.itemList = [p] := by
  match p with
  | .text [] => simp [isItem] at h
  | .text (b :: content) => rfl
  | .sequence children => simp [isItem] at h
  | .optional _ | .choice _ | .regex _ _ | .slot _ | .unknown _ => rfl

theorem same_isItem {a b : Pattern} (h : Same a b) : a.isItem = b.isItem := by
  cases b with
  | text content => rw [same_text.1 h]
  | sequence bs =>
    obtain ⟨as, rfl, -⟩ := exists_of_same_sequence h
    rfl
  | optional b =>
    obtain ⟨a', rfl, -⟩ := exists_of_same_optional h
    rfl
  | choice bs =>
    obtain ⟨as, rfl, -⟩ := exists_of_same_choice h
    rfl
  | regex source finder =>
    obtain ⟨f, rfl⟩ := same_regex.1 h
    rfl
  | slot s =>
    obtain ⟨s', rfl, -⟩ := same_slot.1 h
    rfl
  | unknown label => exact absurd h not_same_unknown

theorem isItem_of_isGroup {p : Pattern} (h : p.isGroup) : p.isItem := by
  cases p <;> first | rfl | exact absurd h (by simp [isGroup])

theorem isText_of_isGroup {p : Pattern} (h : p.isGroup) : p.isText = false := by
  cases p <;> first | rfl | exact absurd h (by simp [isGroup])

theorem separated_cons_of_isGroup {p : Pattern} {ps : List Pattern} (hp : p.isGroup)
    (h : separated ps) : separated (p :: ps) := by
  cases ps with
  | nil => exact isItem_of_isGroup hp
  | cons q qs => simp [separated, isItem_of_isGroup hp, isText_of_isGroup hp, h]

theorem separated_text_cons {content : Text} {p : Pattern} {ps : List Pattern} (hc : content ≠ [])
    (hp : p.isGroup) (h : separated (p :: ps)) : separated (.text content :: p :: ps) := by
  simp [separated, isItem, hc, isText_of_isGroup hp, h]

theorem separated_tail {p : Pattern} {ps : List Pattern} (h : separated (p :: ps)) :
    separated ps := by
  cases ps with
  | nil => rfl
  | cons q qs =>
    simp only [separated, Bool.and_eq_true] at h
    exact h.2

theorem isItem_of_separated {p : Pattern} {ps : List Pattern} (h : separated (p :: ps)) :
    p.isItem := by
  cases ps with
  | nil => exact h
  | cons q qs =>
    simp only [separated, Bool.and_eq_true] at h
    exact h.1.1

theorem isText_head_of_separated {p : Pattern} {ps : List Pattern} (h : separated (p :: ps))
    (hp : p.isText) : ∀ q ∈ ps.head?, q.isText = false := by
  cases ps with
  | nil => simp
  | cons q qs =>
    simp only [separated, Bool.and_eq_true] at h
    simpa [hp] using h.1.2

theorem all_isItem_of_separated {ps : List Pattern} (h : separated ps) : ps.all isItem := by
  induction ps with
  | nil => rfl
  | cons p ps ih =>
    rw [List.all_cons, isItem_of_separated h, ih (separated_tail h)]
    rfl

theorem ofItems_of_two_le {ps : List Pattern} (h : 2 ≤ ps.length) :
    ofItems ps = .sequence ps := by
  match ps with
  | [] => simp at h
  | [p] => simp at h
  | p :: q :: rest => rfl

theorem ofItems_textItem (content : Text) : ofItems (textItem content) = .text content := by
  cases content <;> rfl

theorem itemList_ofItems {ps : List Pattern} (h : ps.all isItem) : (ofItems ps).itemList = ps := by
  match ps with
  | [] => rfl
  | [p] =>
    have hp : p.isItem := by simpa using h
    exact itemList_of_isItem hp
  | p :: q :: rest => rfl

theorem same_ofItems_of_forall₂ {as bs : List Pattern} (h : List.Forall₂ Same as bs) :
    Same (ofItems as) (ofItems bs) := by
  match as, bs, h with
  | [], [], _ => exact same_text.2 rfl
  | [a], [b], .cons h _ => exact h
  | a :: a' :: as, b :: b' :: bs, h => exact same_sequence.2 h

/-- Trees of items are the same exactly when their items are. -/
theorem same_ofItems {as bs : List Pattern} (ha : as.all isItem) (hb : bs.all isItem) :
    Same (ofItems as) (ofItems bs) ↔ List.Forall₂ Same as bs := by
  refine ⟨fun h => ?_, same_ofItems_of_forall₂⟩
  match as, bs with
  | [], [] => exact .nil
  | [a], [b] => exact .cons h .nil
  | a :: a' :: as, b :: b' :: bs => exact same_sequence.1 h
  | [], [b] =>
    have := same_isItem h
    simp_all [ofItems, isItem]
  | [], b :: b' :: bs => exact absurd h (not_same_of_eq rfl)
  | [a], [] =>
    have := same_isItem h
    simp_all [ofItems, isItem]
  | a :: a' :: as, [] => exact absurd h (not_same_of_eq rfl)
  | [a], b :: b' :: bs =>
    have := same_isItem h
    simp_all [ofItems, isItem]
  | a :: a' :: as, [b] =>
    have := same_isItem h
    simp_all [ofItems, isItem]

end Pattern

end Phrasebook
