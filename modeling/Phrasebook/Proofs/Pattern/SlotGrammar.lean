import Mathlib.Data.List.TakeWhile
import Phrasebook.Proofs.Pattern.Concatenation
import Phrasebook.Proofs.Pattern.RoundTrip

/-!
# The grammar of slots

A slot is read as its parts say: the words are looked up one after the other, and the first that
does not resolve ends the reading.  Whatever the bytes between two percent signs, they are compiled
if and only if they are made of parts that are legal.

* `Pattern.SlotForm.IsLegal`, `Pattern.SlotForm.StopsAtUnknown` : parts that make up a slot, and
  parts that would if a word were known.
* `Pattern.SlotReading` : what a slot is read as, by its parts.
* `Pattern.readByParts` : **a slot is read by its parts.**
-/

namespace Phrasebook

namespace Pattern

variable {registry : Registry} {dialect : Regex.Dialect}

/-! ### Legal parts -/

/-- A word that may name a type, and does. -/
def Resolves (registry : Registry) (word : Text) : Prop :=
  isTypeName word ∧ (registry.typeRef? word).isSome

namespace SlotForm

/-- The types that the words stand for, each with its word; what is the same as a type before it is
left out. -/
def types (registry : Registry) (f : SlotForm) : List (TypeRef × Text) :=
  (f.words.filterMap fun word => (registry.typeRef? word).map fun ref => (ref, word)).eraseDupsBy
    fun later former => former.1.same later.1

/-- The slot that is written. -/
def slot (registry : Registry) (f : SlotForm) : Slot where
  types := (f.types registry).map Prod.fst
  nullable := f.nullable
  acceptance := f.acceptance.acceptance
  tense := f.tense.tense
  spellings := (f.types registry).map Prod.snd

/-- There are words, and each of them resolves. -/
def IsLegal (registry : Registry) (f : SlotForm) : Prop :=
  f.words ≠ [] ∧ ∀ word ∈ f.words, Resolves registry word

/-- The first word that does not resolve may name a type. No word has a sign of the last part or a
slash in it. -/
def StopsAtUnknown (registry : Registry) (f : SlotForm) : Prop :=
  (∀ word ∈ f.words, 0x40 ∉ word ∧ 0x2F ∉ word) ∧
    ∃ front word rest, f.words = front ++ word :: rest ∧ (∀ w ∈ front, Resolves registry w) ∧
      isTypeName word ∧ registry.typeRef? word = none

variable {f : SlotForm}

theorem IsLegal.isSeparable (h : f.IsLegal registry) : f.IsSeparable :=
  isSeparable_of_isTypeName h.1 fun word hword => (h.2 word hword).1

theorem StopsAtUnknown.isSeparable (h : f.StopsAtUnknown registry) : f.IsSeparable := by
  obtain ⟨hnotMem, front, word, rest, hwords, hfront, hword, -⟩ := h
  cases front with
  | nil => exact isSeparable_of_head hwords hword hnotMem
  | cons first front =>
    exact isSeparable_of_head hwords (hfront first List.mem_cons_self).1 hnotMem

end SlotForm

/-! ### The parts of what is read -/

theorem readNullable_eq (t : Text) : nullableSign (readNullable t).1 ++ (readNullable t).2 = t := by
  fun_cases readNullable t <;> simp_all [nullableSign]

theorem exists_acceptanceSign (t : Text) : ∃ sign : AcceptanceSign,
    sign.toText ++ (readAcceptance t).2 = t ∧ sign.acceptance = (readAcceptance t).1 := by
  fun_cases readAcceptance t with
  | case1 => exact ⟨.plain, rfl, rfl⟩
  | case2 rest => exact ⟨.tilde, rfl, rfl⟩
  | case3 c rest h h' =>
    obtain rfl | rfl := h'
    · exact ⟨.star, rfl, rfl⟩
    · exact ⟨.atSign, rfl, rfl⟩
  | case4 c rest h h' => exact ⟨.plain, rfl, rfl⟩

theorem exists_tenseSign {suffix : Text} {tense : Tense} (h : tenseOfSuffix? suffix = some tense) :
    ∃ sign : TenseSign, sign.toText = 0x40 :: suffix ∧ sign.tense = tense := by
  unfold tenseOfSuffix? at h
  split_ifs at h with h1 h2
  · obtain rfl := Option.some.inj h
    exact ⟨.one, by rw [h1]; rfl, rfl⟩
  · obtain rfl := Option.some.inj h
    obtain rfl | rfl := h2
    · exact ⟨.minusOne, rfl, rfl⟩
    · exact ⟨.atOne, rfl, rfl⟩

/-- What a slot is read as, by its parts. -/
inductive SlotReading (registry : Registry) (inner : Text) (base : Nat) : Except Fault Slot → Prop
  /-- What stands after the first sign of the last part is no such sign. -/
  | badSuffix {front suffix : Text} (h : inner = front ++ 0x40 :: suffix) :
    SlotReading registry inner base (.error ⟨base + (front.length + 1), .invalidSlot,
      Text.ofString "bad time suffix " ++ suffix.quoted⟩)
  /-- There is no word. -/
  | noWord : SlotReading registry inner base
      (.error ⟨base, .invalidSlot, Text.ofString "no type in " ++ inner.quoted⟩)
  /-- There are words. -/
  | words {f : SlotForm} (h : f.toText = inner) (hne : f.words ≠ [])
      (hnotMem : ∀ word ∈ f.words, 0x40 ∉ word ∧ 0x2F ∉ word) :
    SlotReading registry inner base ((readTypes registry base [] f.words).map fun types =>
        ⟨types.map Prod.fst, f.nullable, f.acceptance.acceptance, f.tense.tense,
          types.map Prod.snd⟩)

theorem slotReading_words {inner names : Text} {nullable : Bool} {acceptance : AcceptanceSign}
    (tense : TenseSign) (base : Nat)
    (hinner : inner = nullableSign nullable ++ (acceptance.toText ++ (names ++ tense.toText)))
    (hnames : 0x40 ∉ names) :
    SlotReading registry inner base
      (if names.isEmpty then
        .error ⟨base, .invalidSlot, Text.ofString "no type in " ++ inner.quoted⟩
      else
        match readTypes registry base [] (Text.splitOn 0x2F names) with
        | .error fault => .error fault
        | .ok types => .ok ⟨types.map (·.1), nullable, acceptance.acceptance, tense.tense,
          types.map (·.2)⟩) := by
  split_ifs
  · exact .noWord
  · have hform :
        SlotForm.toText ⟨nullable, acceptance, Text.splitOn 0x2F names, tense⟩ = inner := by
      rw [hinner, SlotForm.toText, SlotForm.names, Text.join_splitOn]
    have hnotMem : ∀ word ∈ Text.splitOn 0x2F names, 0x40 ∉ word ∧ 0x2F ∉ word := by
      intro word hword
      have hbytes := Text.mem_of_mem_splitOn hword
      exact ⟨fun hmem => hnames (hbytes _ hmem).1, fun hmem => (hbytes _ hmem).2 rfl⟩
    have hreading : SlotReading registry inner base _ :=
      .words hform (Text.splitOn_ne_nil _ _) hnotMem
    generalize readTypes registry base [] (Text.splitOn 0x2F names) = types at hreading
    cases types <;> exact hreading

/-- **A slot is read** by its parts. -/
theorem slotReading (registry : Registry) (inner : Text) (base : Nat) :
    SlotReading registry inner base (readSlot registry inner base) := by
  obtain ⟨acceptance, hsign, hacceptance⟩ := exists_acceptanceSign (readNullable inner).2
  have hinner : inner = nullableSign (readNullable inner).1 ++
      (acceptance.toText ++ (readAcceptance (readNullable inner).2).2) := by
    rw [hsign, readNullable_eq]
  unfold readSlot
  simp only [← hacceptance]
  generalize (readAcceptance (readNullable inner).2).2 = rest at hinner
  cases hdrop : rest.dropWhile (· != 0x40) with
  | nil =>
    have hall : ∀ b ∈ rest, (b != 0x40) = true := List.dropWhile_eq_nil_iff.1 hdrop
    rw [List.takeWhile_eq_self_iff.2 hall]
    refine slotReading_words .plain base ?_ fun hmem => by simpa using hall _ hmem
    rwa [TenseSign.toText, List.append_nil]
  | cons c suffix =>
    obtain ⟨hrest, hnames⟩ := cut_iff.1 ⟨rfl, congrArg List.tail? hdrop⟩
    generalize rest.takeWhile (· != 0x40) = names at hrest hnames
    subst hrest
    cases htense : tenseOfSuffix? suffix with
    | none =>
      simp only [htense]
      have hfront : inner = (nullableSign (readNullable inner).1 ++ acceptance.toText ++ names) ++
          0x40 :: suffix := by
        simpa using hinner
      have hlength : inner.length - suffix.length =
          (nullableSign (readNullable inner).1 ++ acceptance.toText ++ names).length + 1 := by
        have := congrArg List.length hfront
        rw [List.length_append, List.length_cons] at this
        omega
      rw [hlength]
      exact .badSuffix hfront
    | some tense =>
      obtain ⟨sign, hsuffix, rfl⟩ := exists_tenseSign htense
      simp only [htense]
      rw [← hsuffix] at hinner
      exact slotReading_words sign base hinner hnames

/-! ### Words -/

/-- The fault of a word that does not resolve, in a slot that begins at `base`. -/
def wordFault (base : Nat) (word : Text) : Fault :=
  if isTypeName word then ⟨base, .unknownType, word⟩
  else ⟨base, .invalidSlot, Text.ofString "bad type name " ++ word.quoted⟩

/-- Words that resolve stand for their types; what is known or comes a second time is left out. -/
theorem readTypes_of_resolves (base : Nat) (known : List (TypeRef × Text)) {words : List Text}
    (h : ∀ word ∈ words, Resolves registry word) :
    readTypes registry base known words = .ok (known ++
      ((words.filterMap fun word => (registry.typeRef? word).map fun ref => (ref, word)).filter
        fun p => !known.any (·.1.same p.1)).eraseDupsBy
          fun later former => former.1.same later.1) := by
  induction words generalizing known with
  | nil => simp [readTypes]
  | cons word words ih =>
    obtain ⟨⟨hname, href⟩, hwords⟩ := List.forall_mem_cons.1 h
    obtain ⟨ref, href⟩ := Option.isSome_iff_exists.1 href
    simp only [readTypes, hname, href, Bool.not_true, Bool.false_eq_true, ↓reduceIte]
    rw [List.filterMap_cons_some (by rw [href]; rfl)]
    split_ifs with hknown
    · rw [ih known hwords, List.filter_cons_of_neg (by simpa using hknown)]
    · -- a type that is new is known from here on, which leaves the same as it out of the others
      rw [ih _ hwords, List.filter_cons_of_pos (by simpa using hknown), List.eraseDupsBy_cons,
        List.filter_filter, List.append_assoc]
      simp [Bool.and_comm]

/-- The first word that does not resolve ends the reading. -/
theorem readTypes_of_not_resolves (base : Nat) (known : List (TypeRef × Text)) {front : List Text}
    {word : Text} (rest : List Text) (h : ∀ w ∈ front, Resolves registry w)
    (hword : ¬ Resolves registry word) :
    readTypes registry base known (front ++ word :: rest) = .error (wordFault base word) := by
  induction front generalizing known with
  | nil =>
    rw [List.nil_append, readTypes, wordFault]
    cases hname : isTypeName word with
    | false => rfl
    | true =>
      have href : registry.typeRef? word = none := by
        rw [← Option.not_isSome_iff_eq_none]
        exact fun hsome => hword ⟨hname, hsome⟩
      simp [href]
  | cons first front ih =>
    obtain ⟨⟨hname, href⟩, hfront⟩ := List.forall_mem_cons.1 h
    obtain ⟨ref, href⟩ := Option.isSome_iff_exists.1 href
    simp only [List.cons_append, readTypes, hname, href, Bool.not_true, Bool.false_eq_true,
      ↓reduceIte]
    split_ifs
    · exact ih _ hfront
    · exact ih _ hfront

/-- All words resolve, or there is a first that does not. -/
theorem resolves_or_exists (registry : Registry) (words : List Text) :
    (∀ word ∈ words, Resolves registry word) ∨
      ∃ front word rest, words = front ++ word :: rest ∧ (∀ w ∈ front, Resolves registry w) ∧
        ¬ Resolves registry word := by
  induction words with
  | nil => exact .inl (by simp)
  | cons word words ih =>
    by_cases hword : Resolves registry word
    · rcases ih with hall | ⟨front, first, rest, rfl, hfront, hfirst⟩
      · exact .inl (List.forall_mem_cons.2 ⟨hword, hall⟩)
      · exact .inr ⟨word :: front, first, rest, rfl, List.forall_mem_cons.2 ⟨hword, hfront⟩, hfirst⟩
    · exact .inr ⟨[], word, words, rfl, by simp, hword⟩

/-! ### Slots by their parts -/

namespace SlotForm

variable {f : SlotForm}

/-- **Legal parts** are read as the slot they are written for. -/
theorem IsLegal.readSlot_toText (h : f.IsLegal registry) (base : Nat) :
    readSlot registry f.toText base = .ok (f.slot registry) := by
  rw [h.isSeparable.readSlot_toText, readTypes_of_resolves base [] h.2]
  simp only [List.any_nil, Bool.not_false, List.filter_true, List.nil_append]
  rfl

/-- Parts that stop at an unknown word are refused for that word. -/
theorem StopsAtUnknown.readSlot_toText (h : f.StopsAtUnknown registry) (base : Nat) :
    ∃ word ∈ f.words, readSlot registry f.toText base = .error ⟨base, .unknownType, word⟩ := by
  rw [h.isSeparable.readSlot_toText]
  obtain ⟨-, front, word, rest, hwords, hfront, hname, href⟩ := h
  have hword : ¬ Resolves registry word := fun hres => by simpa [href] using hres.2
  refine ⟨word, by simp [hwords], ?_⟩
  rw [hwords, readTypes_of_not_resolves base [] rest hfront hword, wordFault, if_pos hname]
  rfl

end SlotForm

/-- **A slot is legal, stops at an unknown word, or is no slot.** -/
theorem readSlot_cases (registry : Registry) (inner : Text) (base : Nat) :
    (∃ f : SlotForm, f.IsLegal registry ∧ f.toText = inner) ∨
    (∃ f : SlotForm, f.StopsAtUnknown registry ∧ f.toText = inner) ∨
    ∃ fault, readSlot registry inner base = .error fault ∧ fault.cause = .invalidSlot := by
  have hreading := slotReading registry inner base
  generalize hread : readSlot registry inner base = result at hreading
  cases hreading with
  | badSuffix h => exact .inr (.inr ⟨_, rfl, rfl⟩)
  | noWord => exact .inr (.inr ⟨_, rfl, rfl⟩)
  | @words f h hne hnotMem =>
    rcases resolves_or_exists registry f.words with
      hall | ⟨front, word, rest, hwords, hfront, hword⟩
    · exact .inl ⟨f, ⟨hne, hall⟩, h⟩
    · rw [hwords, readTypes_of_not_resolves base [] rest hfront hword, wordFault]
      split_ifs with hname
      · have href : registry.typeRef? word = none := by
          rw [← Option.not_isSome_iff_eq_none]
          exact fun hsome => hword ⟨hname, hsome⟩
        exact .inr (.inl ⟨f, ⟨hnotMem, front, word, rest, hwords, hfront, hname, href⟩, h⟩)
      · exact .inr (.inr ⟨_, rfl, rfl⟩)

/-- A slot by itself is read as its inside. -/
theorem compile_slot {inner : Text} (h : 0x25 ∉ inner) :
    compile dialect registry (0x25 :: (inner ++ [0x25])) =
      ((readSlot registry inner 1).map Pattern.slot).mapError fun fault =>
        ⟨0x25 :: (inner ++ [0x25]), fault⟩ := by
  have hinside : groupInside 0x25 (inner ++ [0x25]) = some (inner, []) := by
    obtain ⟨htake, hdrop⟩ := cut_iff.2 ⟨rfl, h⟩
    change (((inner ++ [0x25]).dropWhile (· != 0x25)).tail?).map _ = _
    rw [htake, hdrop]
    rfl
  simp +decide only [compile, items_group, hinside, groupItem, items_nil, ↓reduceIte]
  cases readSlot registry inner 1 <;> rfl

/-- How compiling `inner` between percent signs goes by the parts that `inner` is made of. -/
structure ReadByParts (dialect : Regex.Dialect) (registry : Registry) (inner : Text) : Prop where
  /-- It succeeds exactly when there are legal parts that make up the text. -/
  isOk_iff : (∃ t, compile dialect registry (0x25 :: (inner ++ [0x25])) = .ok t) ↔
    ∃ f : SlotForm, f.IsLegal registry ∧ f.toText = inner
  /-- There is one way to make up the text of legal parts. -/
  unique : ∀ f g : SlotForm, f.IsLegal registry → g.IsLegal registry →
    f.toText = inner → g.toText = inner → f = g
  /-- The tree is the slot that the parts are written for. -/
  eq_slot : ∀ f : SlotForm, f.IsLegal registry → f.toText = inner →
    compile dialect registry (0x25 :: (inner ++ [0x25])) = .ok (.slot (f.slot registry))
  /-- What fails is no slot, or refers to an unknown type. -/
  cause : ∀ e, compile dialect registry (0x25 :: (inner ++ [0x25])) = .error e →
    e.fault.cause = .invalidSlot ∨ e.fault.cause = .unknownType
  /-- It refers to an unknown type exactly when the signs are in order and the first word that does
  not resolve may name a type. -/
  unknownType_iff : (∃ e, compile dialect registry (0x25 :: (inner ++ [0x25])) = .error e ∧
      e.fault.cause = .unknownType) ↔
    ∃ f : SlotForm, f.StopsAtUnknown registry ∧ f.toText = inner

/-- **A slot is read by its parts.** -/
theorem readByParts {inner : Text} (h : 0x25 ∉ inner) : ReadByParts dialect registry inner := by
  have legal (f : SlotForm) (hf : f.IsLegal registry) (heq : f.toText = inner) :
      compile dialect registry (0x25 :: (inner ++ [0x25])) = .ok (.slot (f.slot registry)) := by
    rw [compile_slot h, ← heq, hf.readSlot_toText]
    rfl
  have unknown (f : SlotForm) (hf : f.StopsAtUnknown registry) (heq : f.toText = inner) :
      ∃ word, compile dialect registry (0x25 :: (inner ++ [0x25])) =
        .error ⟨0x25 :: (inner ++ [0x25]), 1, .unknownType, word⟩ := by
    obtain ⟨word, -, hread⟩ := hf.readSlot_toText 1
    rw [compile_slot h, ← heq, hread]
    exact ⟨word, rfl⟩
  have malformed (fault : Fault) (hread : readSlot registry inner 1 = .error fault) :
      compile dialect registry (0x25 :: (inner ++ [0x25])) =
        .error ⟨0x25 :: (inner ++ [0x25]), fault⟩ := by
    rw [compile_slot h, hread]
    rfl
  refine ⟨⟨?_, ?_⟩, ?_, legal, ?_, ⟨?_, ?_⟩⟩
  · rintro ⟨t, ht⟩
    rcases readSlot_cases registry inner 1 with hlegal | ⟨f, hf, heq⟩ | ⟨fault, hread, -⟩
    · exact hlegal
    · obtain ⟨word, herror⟩ := unknown f hf heq
      cases ht.symm.trans herror
    · cases ht.symm.trans (malformed fault hread)
  · rintro ⟨f, hf, heq⟩
    exact ⟨_, legal f hf heq⟩
  · intro f g hf hg hfeq hgeq
    exact hf.isSeparable.eq_of_toText_eq hg.isSeparable (hfeq.trans hgeq.symm)
  · intro e he
    rcases readSlot_cases registry inner 1 with ⟨f, hf, heq⟩ | ⟨f, hf, heq⟩ | ⟨fault, hread, hcause⟩
    · cases he.symm.trans (legal f hf heq)
    · obtain ⟨word, herror⟩ := unknown f hf heq
      obtain rfl := Except.error.inj (he.symm.trans herror)
      exact .inr rfl
    · obtain rfl := Except.error.inj (he.symm.trans (malformed fault hread))
      exact .inl hcause
  · rintro ⟨e, he, hcause⟩
    rcases readSlot_cases registry inner 1 with ⟨f, hf, heq⟩ | hstops | ⟨fault, hread, hinvalid⟩
    · cases he.symm.trans (legal f hf heq)
    · exact hstops
    · obtain rfl := Except.error.inj (he.symm.trans (malformed fault hread))
      cases hcause.symm.trans hinvalid
  · rintro ⟨f, hf, heq⟩
    obtain ⟨word, herror⟩ := unknown f hf heq
    exact ⟨_, herror, rfl⟩

instance (word : Text) : Decidable (Resolves registry word) :=
  inferInstanceAs (Decidable (_ ∧ _))

instance (f : SlotForm) : Decidable (f.IsLegal registry) :=
  inferInstanceAs (Decidable (_ ∧ _))

/-- A slot with a sign in each place, in which a type is named twice in the same number. -/
def pastNumbers : SlotForm where
  nullable := true
  acceptance := .star
  words := ["numbers", "number", "numbers"].map Text.ofString
  tense := .atOne

/-- A slot whose word looks like the sign for a time. -/
def lonelyOne : SlotForm where
  nullable := false
  acceptance := .atSign
  words := [Text.ofString "1"]
  tense := .plain

theorem readByParts_pastNumbers :
    compile Regex.backtracking builtinTypes (Text.ofString "%-*numbers/number/numbers@@1%") =
        .ok (.slot (pastNumbers.slot builtinTypes)) ∧
      (pastNumbers.types builtinTypes).map Prod.snd = ["numbers", "number"].map Text.ofString ∧
      ∃ e, compile Regex.backtracking builtinTypes (Text.ofString "%@1%") = .error e ∧
        e.fault.cause = .unknownType := by
  have hpast : 0x25 ∉ pastNumbers.toText := by decide +kernel
  have hone : 0x25 ∉ lonelyOne.toText := by decide +kernel
  have hlegal : pastNumbers.IsLegal builtinTypes := by decide +kernel
  have hstops : lonelyOne.StopsAtUnknown builtinTypes :=
    ⟨by decide +kernel, [], Text.ofString "1", [], rfl, by simp, by decide +kernel,
      by decide +kernel⟩
  exact ⟨(readByParts hpast).eq_slot pastNumbers hlegal rfl, by decide +kernel,
    (readByParts hone).unknownType_iff.2 ⟨lonelyOne, hstops, rfl⟩⟩

end Pattern

end Phrasebook
