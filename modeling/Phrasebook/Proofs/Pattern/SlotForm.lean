import Mathlib.Data.Bool.AllAny
import Phrasebook.Pattern.Slot
import Phrasebook.Proofs.Text.Pieces
import Phrasebook.Proofs.Text.Utf8

/-!
# The parts of slots

A slot is written in four parts: whether it may stay empty, what may fill it, the words for its
types, and the time it is read at.  The signs of the first, the second and the last part share bytes,
and they are cut off one after the other, so a slot is read by its parts only where its words do not
look like signs.

* `Pattern.SlotForm` : the four parts, and the text that they make.
* `Pattern.SlotForm.IsSeparable.readSlot_toText` : **parts that can be told apart** are read word by
  word.
* `Pattern.SlotForm.IsSeparable.eq_of_toText_eq` : they are the only such parts of their text.
-/

namespace Phrasebook

namespace Pattern

variable {registry : Registry}

/-! ### Names -/

/-- The bytes that have a meaning in slots or in patterns. -/
def reservedBytes : Text :=
  specialBytes ++ Text.ofString "-~*@/"

/-- An ASCII byte of a name is a character of it: a letter, a digit or an underscore. -/
theorem isNameChar_of_mem {name : Text} (h : isTypeName name) {b : UInt8} (hascii : b.toNat < 0x80)
    (hb : b ∈ name) : (Unicode.isLetter (Char.ofNat b.toNat) ||
      Unicode.isDigit (Char.ofNat b.toNat) || Char.ofNat b.toNat == '_') = true := by
  simp only [isTypeName, Bool.and_eq_true, List.all_eq_true] at h
  exact h.2 _ (Text.mem_chars_of_mem hascii hb)

theorem notMem_of_isTypeName {name : Text} (h : isTypeName name) {b : UInt8} (hb : b ∈ name) :
    b ∉ reservedBytes := by
  intro hr
  have hascii : ∀ b ∈ reservedBytes, b.toNat < 0x80 :=
    List.all_iff_forall_prop.1 (by decide)
  have hclass : ∀ b ∈ reservedBytes, (Unicode.isLetter (Char.ofNat b.toNat) ||
      Unicode.isDigit (Char.ofNat b.toNat) || Char.ofNat b.toNat == '_') = false :=
    List.all_iff_forall_prop.1 (by decide)
  have := isNameChar_of_mem h (hascii b hr) hb
  rw [hclass b hr] at this
  exact Bool.false_ne_true this

theorem ne_nil_of_isTypeName {name : Text} (h : isTypeName name) : name ≠ [] := by
  rintro rfl
  exact absurd h (by simp [isTypeName])

/-! ### Parts -/

/-- The signs for what may fill a slot. -/
inductive AcceptanceSign where
  /-- No sign. -/
  | plain
  /-- A tilde. -/
  | tilde
  /-- A star. -/
  | star
  /-- A commercial at. -/
  | atSign
  deriving DecidableEq, Repr

namespace AcceptanceSign

/-- The sign as it is written. -/
def toText : AcceptanceSign → Text
  | .plain => []
  | .tilde => Text.ofString "~"
  | .star => Text.ofString "*"
  | .atSign => Text.ofString "@"

/-- What the sign lets fill the slot. -/
def acceptance : AcceptanceSign → Acceptance
  | .plain => .both
  | .tilde => .expressions
  | .star | .atSign => .literals

theorem toText_injective : Function.Injective toText := by
  intro a b
  cases a <;> cases b <;> decide

end AcceptanceSign

/-- The signs for the time a slot is read at. -/
inductive TenseSign where
  /-- No sign. -/
  | plain
  /-- A one. -/
  | one
  /-- A minus one. -/
  | minusOne
  /-- A one after another commercial at. -/
  | atOne
  deriving DecidableEq, Repr

namespace TenseSign

/-- The sign as it is written. -/
def toText : TenseSign → Text
  | .plain => []
  | .one => Text.ofString "@1"
  | .minusOne => Text.ofString "@-1"
  | .atOne => Text.ofString "@@1"

/-- The time of the sign. -/
def tense : TenseSign → Tense
  | .plain => .none
  | .one => .future
  | .minusOne | .atOne => .past

theorem toText_injective : Function.Injective toText := by
  intro a b
  cases a <;> cases b <;> decide

end TenseSign

/-- The parts of a slot as it is written. -/
@[ext]
structure SlotForm where
  /-- Whether a minus stands in front. -/
  nullable : Bool
  /-- The sign for what may fill the slot. -/
  acceptance : AcceptanceSign
  /-- The words for the types. -/
  words : List Text
  /-- The sign for the time. -/
  tense : TenseSign
  deriving DecidableEq, Repr

namespace SlotForm

/-- The words with slashes between them. -/
def names (f : SlotForm) : Text :=
  Text.join [0x2F] f.words

/-- The parts one after the other. -/
def toText (f : SlotForm) : Text :=
  nullableSign f.nullable ++ (f.acceptance.toText ++ (f.names ++ f.tense.toText))

/-- The words can be told from the signs around them and from one another. -/
structure IsSeparable (f : SlotForm) : Prop where
  /-- They begin with no sign. -/
  head : ∃ c t, f.names = c :: t ∧ c ∉ reservedBytes
  /-- They have no sign of the last part and no slash in them. -/
  notMem : ∀ word ∈ f.words, 0x40 ∉ word ∧ 0x2F ∉ word

theorem notMem_signs_of_isTypeName {word : Text} (h : isTypeName word) :
    0x40 ∉ word ∧ 0x2F ∉ word :=
  ⟨fun hmem => notMem_of_isTypeName h hmem (by decide),
    fun hmem => notMem_of_isTypeName h hmem (by decide)⟩

variable {f g : SlotForm}

/-- Parts can be told apart if the first word may name a type. -/
theorem isSeparable_of_head {word : Text} {rest : List Text} (hwords : f.words = word :: rest)
    (hname : isTypeName word) (hnotMem : ∀ word ∈ f.words, 0x40 ∉ word ∧ 0x2F ∉ word) :
    f.IsSeparable := by
  refine ⟨?_, hnotMem⟩
  rw [names, hwords]
  cases word with
  | nil => exact absurd rfl (ne_nil_of_isTypeName hname)
  | cons c word =>
    have hc := notMem_of_isTypeName hname List.mem_cons_self
    cases rest with
    | nil => exact ⟨c, word, rfl, hc⟩
    | cons q qs => exact ⟨c, _, rfl, hc⟩

/-- Parts can be told apart if there are words and each may name a type. -/
theorem isSeparable_of_isTypeName (hne : f.words ≠ []) (h : ∀ word ∈ f.words, isTypeName word) :
    f.IsSeparable := by
  obtain ⟨word, rest, hwords⟩ := List.exists_cons_of_ne_nil hne
  exact isSeparable_of_head hwords (h word (hwords ▸ List.mem_cons_self))
    fun word hword => notMem_signs_of_isTypeName (h word hword)

/-- Parts whose words may name types have no byte with a meaning in patterns. -/
theorem notMem_toText (h : ∀ word ∈ f.words, isTypeName word) {b : UInt8} (hb : b ∈ specialBytes) :
    b ∉ f.toText := by
  intro hmem
  have hsigns : ∀ a ∈ specialBytes, a ∉ nullableSign f.nullable ∧ a ∉ f.acceptance.toText ∧
      a ∉ f.tense.toText ∧ a ≠ 0x2F := by
    cases f.nullable <;> cases f.acceptance <;> cases f.tense <;>
      exact List.all_iff_forall_prop.1 (by decide)
  obtain ⟨hn, ha, ht, hne⟩ := hsigns b hb
  simp only [toText, List.mem_append, hn, ha, ht, false_or, or_false] at hmem
  rcases Text.mem_join hmem with hbad | ⟨word, hword, hbad⟩
  · exact hne hbad
  · exact notMem_of_isTypeName (h word hword) hbad (List.mem_append_left _ hb)

namespace IsSeparable

variable (h : f.IsSeparable)
include h

theorem words_ne_nil : f.words ≠ [] := by
  obtain ⟨c, t, hct, -⟩ := h.head
  intro hnil
  rw [names, hnil] at hct
  cases hct

theorem notMem_names : ∀ b ∈ f.names, (b != 0x40) = true := by
  intro b hb
  rw [bne_iff_ne]
  rintro rfl
  rcases Text.mem_join hb with hb | ⟨word, hword, hb⟩
  · exact absurd hb (by decide)
  · exact (h.notMem word hword).1 hb

theorem splitOn_names : Text.splitOn 0x2F f.names = f.words :=
  Text.splitOn_join h.words_ne_nil fun word hword => (h.notMem word hword).2

theorem readNullable_toText :
    readNullable f.toText = (f.nullable, f.acceptance.toText ++ (f.names ++ f.tense.toText)) := by
  obtain ⟨c, t, hct, hc⟩ := h.head
  have hminus : c ≠ 0x2D := by
    rintro rfl
    exact hc (by decide)
  unfold toText
  cases f.nullable with
  | true => rfl
  | false =>
    cases f.acceptance with
    | tilde | star | atSign => rfl
    | plain => simp [nullableSign, AcceptanceSign.toText, hct, readNullable, hminus]

theorem readAcceptance_toText :
    readAcceptance (f.acceptance.toText ++ (f.names ++ f.tense.toText)) =
      (f.acceptance.acceptance, f.names ++ f.tense.toText) := by
  obtain ⟨c, t, hct, hc⟩ := h.head
  have hsign : c ≠ 0x7E ∧ c ≠ 0x2A ∧ c ≠ 0x40 := by
    refine ⟨?_, ?_, ?_⟩ <;> (rintro rfl; exact hc (by decide))
  cases f.acceptance with
  | tilde | star | atSign => rfl
  | plain => simp [AcceptanceSign.toText, AcceptanceSign.acceptance, hct, readAcceptance, hsign]

theorem cut_names : (f.names ++ f.tense.toText).takeWhile (· != 0x40) = f.names ∧
    (f.names ++ f.tense.toText).dropWhile (· != 0x40) = f.tense.toText := by
  rw [List.takeWhile_append_of_pos h.notMem_names, List.dropWhile_append_of_pos h.notMem_names]
  cases f.tense <;> exact ⟨List.append_nil _, rfl⟩

/-- **A slot whose parts can be told apart** is read word by word. -/
theorem readSlot_toText (base : Nat) :
    readSlot registry f.toText base =
      (readTypes registry base [] f.words).map fun types =>
        ⟨types.map Prod.fst, f.nullable, f.acceptance.acceptance, f.tense.tense,
          types.map Prod.snd⟩ := by
  obtain ⟨htake, hdrop⟩ := h.cut_names
  obtain ⟨c, t, hct, -⟩ := h.head
  have hne : f.names.isEmpty = false := by rw [hct]; rfl
  simp only [readSlot, h.readNullable_toText, h.readAcceptance_toText, htake, hdrop, hne,
    h.splitOn_names]
  cases f.tense <;> cases readTypes registry base [] f.words <;> rfl

/-- Parts that can be told apart are told by the text they make. -/
theorem eq_of_toText_eq (hg : g.IsSeparable) (heq : f.toText = g.toText) : f = g := by
  have hsplit := h.readNullable_toText
  rw [heq, hg.readNullable_toText] at hsplit
  obtain ⟨hnullable, hrest⟩ := Prod.mk.inj hsplit
  have hsplit := h.readAcceptance_toText
  rw [← hrest, hg.readAcceptance_toText] at hsplit
  obtain ⟨-, hbody⟩ := Prod.mk.inj hsplit
  have hsign : g.acceptance = f.acceptance := by
    rw [hbody] at hrest
    exact AcceptanceSign.toText_injective (List.append_cancel_right hrest)
  obtain ⟨htake, hdrop⟩ := h.cut_names
  rw [← hbody, hg.cut_names.1] at htake
  rw [← hbody, hg.cut_names.2] at hdrop
  have hwords := h.splitOn_names
  rw [← htake, hg.splitOn_names] at hwords
  exact SlotForm.ext hnullable.symm hsign.symm hwords.symm (TenseSign.toText_injective hdrop.symm)

end IsSeparable

end SlotForm

end Pattern

end Phrasebook
