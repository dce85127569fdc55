import Phrasebook.Proofs.Pattern.Reading
import Phrasebook.Proofs.Pattern.SlotForm

/-!
# Spelling of slots

What a slot has to be for its rendering to be read back, and that every slot that is read is one.

* `Slot.isNormal` : known signs, types that differ, and names that stand for them.
* `Pattern.readSlot?_slotBody` : such a slot is read back from its rendering.
* `Pattern.isNormal_of_readSlot?` : a slot that has been read is such a slot.
-/

namespace Phrasebook

/-! ### Slots that can be written -/

namespace TypeRef

theorem same_iff {r s : TypeRef} : r.same s ↔ r.single = s.single ∧ r.name? = s.name? := by
  simp [same]

theorem same_refl (r : TypeRef) : r.same r := same_iff.2 ⟨rfl, rfl⟩

theorem same_symm {r s : TypeRef} (h : r.same s) : s.same r :=
  same_iff.2 ⟨(same_iff.1 h).1.symm, (same_iff.1 h).2.symm⟩

theorem same_trans {r s t : TypeRef} (h : r.same s) (h' : s.same t) : r.same t :=
  same_iff.2 ⟨(same_iff.1 h).1.trans (same_iff.1 h').1, (same_iff.1 h).2.trans (same_iff.1 h').2⟩

end TypeRef

/-- An acceptance with a meaning. -/
def Acceptance.isDeclared : Acceptance → Bool
  | .other _ => false
  | _ => true

/-- A time with a meaning. -/
def Tense.isDeclared : Tense → Bool
  | .other _ => false
  | _ => true

/-- Whether the spelling `name` stands for a type. -/
def Registry.spells (registry : Registry) (name : Text) (ref : TypeRef) : Bool :=
  Pattern.isTypeName name && (registry.typeRef? name).any (·.same ref)

/-- A slot that can be written: its acceptance and its time have a meaning, it has types, no two of
them the same, and the registry reads the name of each back as that type. -/
def Slot.isNormal (registry : Registry) (s : Slot) : Bool :=
  s.acceptance.isDeclared && s.tense.isDeclared && !s.types.isEmpty &&
    decide (s.types.Pairwise fun a b => a.same b = false) &&
    (s.types.zip (Pattern.slotNames s.types s.spellings)).all fun p => registry.spells p.2 p.1

namespace Pattern

variable {registry : Registry}

/-- A slot as it is written, without the percent signs. -/
def slotBody (s : Slot) : Text :=
  nullableSign s.nullable ++ (acceptanceSign s.acceptance ++
    (Text.join [0x2F] (slotNames s.types s.spellings) ++ tenseSuffix s.tense))

theorem renderSlot_eq (s : Slot) : renderSlot s = 0x25 :: (slotBody s ++ [0x25]) := by
  simp [renderSlot, slotBody]

/-! ### Types -/

theorem length_slotNames (types : List TypeRef) (spellings : List Text) :
    (slotNames types spellings).length = types.length := by
  fun_induction slotNames types spellings <;> simp_all

theorem spells_iff {name : Text} {ref : TypeRef} : registry.spells name ref ↔
    isTypeName name ∧ ∃ r, registry.typeRef? name = some r ∧ r.same ref := by
  simp [Registry.spells, Option.any_eq_true]

/-- Names that stand for types, none of which is known or comes twice, are read as these types. -/
theorem readTypes_of_spells (base : Nat) (known : List (TypeRef × Text)) {refs : List TypeRef}
    {names : List Text} (hlen : names.length = refs.length)
    (hspell : ∀ p ∈ refs.zip names, registry.spells p.2 p.1)
    (hdistinct : refs.Pairwise fun a b => a.same b = false)
    (hknown : ∀ k ∈ known, ∀ r ∈ refs, k.1.same r = false) :
    ∃ found, readTypes registry base known names = .ok (known ++ found) ∧
      sameRefs (found.map Prod.fst) refs := by
  induction refs generalizing known names with
  | nil =>
    obtain rfl := List.eq_nil_of_length_eq_zero hlen
    exact ⟨[], by simp [readTypes], rfl⟩
  | cons ref refs ih =>
    cases names with
    | nil => simp at hlen
    | cons name names =>
      obtain ⟨hfirst, hspell⟩ := List.forall_mem_cons.1 hspell
      obtain ⟨hname, r, hr, hsame⟩ := spells_iff.1 hfirst
      obtain ⟨href, hdistinct⟩ := List.pairwise_cons.1 hdistinct
      -- the registry's type need only be the same as the slot's, so both conditions go over to it
      have hnew : known.any (·.1.same r) = false := by
        rw [List.any_eq_false]
        intro k hk hkr
        have := hknown k hk ref List.mem_cons_self
        rw [TypeRef.same_trans hkr hsame] at this
        exact Bool.false_ne_true this.symm
      have hknown' : ∀ k ∈ known ++ [(r, name)], ∀ r' ∈ refs, k.1.same r' = false := by
        intro k hk r' hr'
        rcases List.mem_append.1 hk with hk | hk
        · exact hknown k hk r' (List.mem_cons_of_mem _ hr')
        · obtain rfl := List.mem_singleton.1 hk
          by_contra hbad
          rw [Bool.not_eq_false] at hbad
          have := TypeRef.same_trans (TypeRef.same_symm hsame) hbad
          rw [href r' hr'] at this
          exact Bool.false_ne_true this
      obtain ⟨found, hfound, hrefs⟩ := ih _ (by simpa using hlen) hspell hdistinct hknown'
      refine ⟨(r, name) :: found, ?_, ?_⟩
      · simp only [readTypes, hname, hr, hnew]
        simpa using hfound
      · simp [sameRefs, hsame, hrefs]

/-- Types with their spellings: no two are the same, and each spelling stands for its type. -/
def Spelled (registry : Registry) (types : List (TypeRef × Text)) : Prop :=
  (types.map Prod.fst).Pairwise (fun a b => a.same b = false) ∧
    ∀ p ∈ types, registry.spells p.2 p.1

theorem spelled_append {known : List (TypeRef × Text)} {name : Text} {ref : TypeRef}
    (h : Spelled registry known) (hname : isTypeName name) (hr : registry.typeRef? name = some ref)
    (hnew : ∀ k ∈ known, k.1.same ref = false) : Spelled registry (known ++ [(ref, name)]) := by
  obtain ⟨hdistinct, hspell⟩ := h
  constructor
  · rw [List.map_append, List.pairwise_append]
    refine ⟨hdistinct, List.pairwise_singleton _ _, ?_⟩
    intro a ha b hb
    obtain ⟨k, hk, rfl⟩ := List.mem_map.1 ha
    obtain rfl := List.mem_singleton.1 hb
    exact hnew k hk
  · intro p hp
    rcases List.mem_append.1 hp with hp | hp
    · exact hspell p hp
    · obtain rfl := List.mem_singleton.1 hp
      exact spells_iff.2 ⟨hname, ref, hr, TypeRef.same_refl ref⟩

/-- Types that are read are spelled, and there are some if there are names. -/
theorem spelled_of_readTypes {base : Nat} {known types : List (TypeRef × Text)} {names : List Text}
    (h : readTypes registry base known names = .ok types) (hk : Spelled registry known) :
    Spelled registry types ∧ (known ≠ [] ∨ names ≠ [] → types ≠ []) := by
  induction names generalizing known with
  | nil =>
    obtain rfl := Except.ok.inj h
    exact ⟨hk, by simp⟩
  | cons name names ih =>
    simp only [readTypes] at h
    split_ifs at h with hname
    rw [Bool.not_eq_true, Bool.not_eq_false'] at hname
    split at h
    · simp at h
    · rename_i ref hr
      split_ifs at h with hany
      · -- a type that is known already is not taken up twice
        obtain ⟨hs, hne⟩ := ih h hk
        refine ⟨hs, fun _ => hne (.inl ?_)⟩
        rintro rfl
        simp at hany
      · rw [Bool.not_eq_true, List.any_eq_false] at hany
        obtain ⟨hs, hne⟩ := ih h (spelled_append hk hname hr (by simpa using hany))
        exact ⟨hs, fun _ => hne (.inl (by simp))⟩

/-- Each type that is read is what the registry makes of the spelling beside it. -/
theorem typeRef?_of_readTypes {base : Nat} {known types : List (TypeRef × Text)} {names : List Text}
    (h : readTypes registry base known names = .ok types)
    (hk : ∀ p ∈ known, registry.typeRef? p.2 = some p.1) :
    ∀ p ∈ types, registry.typeRef? p.2 = some p.1 := by
  induction names generalizing known with
  | nil =>
    obtain rfl := Except.ok.inj h
    exact hk
  | cons name names ih =>
    simp only [readTypes] at h
    split_ifs at h
    split at h
    · cases h
    · rename_i ref hr
      split_ifs at h
      · exact ih h hk
      · refine ih h (List.forall_mem_append.2 ⟨hk, ?_⟩)
        intro p hp
        obtain rfl := List.mem_singleton.1 hp
        exact hr

/-! ### Slots -/

theorem typeRef?_of_readSlot? {inner : Text} {s : Slot} (h : readSlot? registry inner = some s) :
    ∀ ref ∈ s.types, ∃ name, registry.typeRef? name = some ref := by
  simp only [readSlot?, Option.bind_eq_some_iff] at h
  obtain ⟨tense, -, h⟩ := h
  split_ifs at h
  obtain ⟨types, htypes, rfl⟩ := Option.map_eq_some_iff.1 h
  intro ref href
  obtain ⟨p, hp, rfl⟩ := List.mem_map.1 href
  exact ⟨p.2, typeRef?_of_readTypes (toOption_eq_some.1 htypes) (by simp) p hp⟩

theorem isNormal_iff {s : Slot} : s.isNormal registry ↔
    s.acceptance.isDeclared ∧ s.tense.isDeclared ∧ s.types ≠ [] ∧
      s.types.Pairwise (fun a b => a.same b = false) ∧
      ∀ p ∈ s.types.zip (slotNames s.types s.spellings), registry.spells p.2 p.1 := by
  simp only [Slot.isNormal, Bool.and_eq_true, Bool.not_eq_true', decide_eq_true_eq,
    List.all_eq_true, List.isEmpty_eq_false_iff, and_assoc, ne_eq]

theorem slotNames_eq (types : List (TypeRef × Text)) :
    slotNames (types.map Prod.fst) (types.map Prod.snd) = types.map Prod.snd := by
  induction types with
  | nil => rfl
  | cons p types ih => simp [slotNames, ih]

theorem isTypeName_of_mem {s : Slot} (h : s.isNormal registry) {name : Text}
    (hn : name ∈ slotNames s.types s.spellings) : isTypeName name := by
  obtain ⟨-, -, -, -, hspell⟩ := isNormal_iff.1 h
  obtain ⟨i, hi, rfl⟩ := List.getElem_of_mem hn
  have hi' : i < s.types.length := by rwa [length_slotNames] at hi
  have := hspell (s.types[i], (slotNames s.types s.spellings)[i])
    (List.mem_iff_getElem.2 ⟨i, by simp [length_slotNames, hi'], by simp⟩)
  exact (spells_iff.1 this).1

theorem isDeclared_readAcceptance (t : Text) : (readAcceptance t).1.isDeclared := by
  fun_cases readAcceptance t <;> rfl

theorem isDeclared_of_readTense? {t : Text} {tense : Tense} (h : readTense? t = some tense) :
    tense.isDeclared := by
  unfold readTense? tenseOfSuffix? at h
  split at h
  · obtain rfl := Option.some.inj h
    rfl
  · split_ifs at h <;> obtain rfl := Option.some.inj h <;> rfl

/-- **A slot that has been read** can be written. -/
theorem isNormal_of_readSlot? {inner : Text} {s : Slot} (h : readSlot? registry inner = some s) :
    s.isNormal registry := by
  simp only [readSlot?, Option.bind_eq_some_iff] at h
  obtain ⟨tense, htense, h⟩ := h
  split_ifs at h
  obtain ⟨types, htypes, rfl⟩ := Option.map_eq_some_iff.1 h
  obtain ⟨⟨hdistinct, hspell⟩, hne⟩ :=
    spelled_of_readTypes (toOption_eq_some.1 htypes) ⟨List.Pairwise.nil, by simp⟩
  refine isNormal_iff.2 ⟨isDeclared_readAcceptance _, isDeclared_of_readTense? htense, ?_,
    hdistinct, ?_⟩
  · simpa using hne (.inr (Text.splitOn_ne_nil _ _))
  · intro p hp
    change p ∈ (types.map Prod.fst).zip (slotNames (types.map Prod.fst) (types.map Prod.snd)) at hp
    rw [slotNames_eq, List.zip_map'] at hp
    exact hspell p (by simpa using hp)

section Written

variable {s : Slot} (h : s.isNormal registry)
include h

/-- A slot that can be written is written in parts. -/
theorem exists_slotForm : ∃ f : SlotForm, f.toText = slotBody s ∧ f.nullable = s.nullable ∧
    f.acceptance.acceptance = s.acceptance ∧ f.tense.tense = s.tense ∧
    f.words = slotNames s.types s.spellings := by
  obtain ⟨hacceptance, htense, -⟩ := isNormal_iff.1 h
  obtain ⟨sign, hsign, hsignText⟩ : ∃ sign : AcceptanceSign, sign.acceptance = s.acceptance ∧
      sign.toText = acceptanceSign s.acceptance := by
    cases hs : s.acceptance with
    | both => exact ⟨.plain, rfl, rfl⟩
    | literals => exact ⟨.star, rfl, rfl⟩
    | expressions => exact ⟨.tilde, rfl, rfl⟩
    | other code => simp [hs, Acceptance.isDeclared] at hacceptance
  obtain ⟨time, htime, htimeText⟩ : ∃ time : TenseSign, time.tense = s.tense ∧
      time.toText = tenseSuffix s.tense := by
    cases hs : s.tense with
    | none => exact ⟨.plain, rfl, rfl⟩
    | future => exact ⟨.one, rfl, rfl⟩
    | past => exact ⟨.minusOne, rfl, rfl⟩
    | other code => simp [hs, Tense.isDeclared] at htense
  refine ⟨⟨s.nullable, sign, slotNames s.types s.spellings, time⟩, ?_, rfl, hsign, htime, rfl⟩
  rw [SlotForm.toText, SlotForm.names, slotBody, hsignText, htimeText]

/-- **A slot** is read back from its rendering. -/
theorem readSlot?_slotBody : ∃ s', readSlot? registry (slotBody s) = some s' ∧ sameSlot s' s := by
  obtain ⟨-, -, hne, hdistinct, hspell⟩ := isNormal_iff.1 h
  obtain ⟨f, hf, hnullable, hacceptance, htense, hwords⟩ := exists_slotForm h
  have hseparable : f.IsSeparable := by
    refine SlotForm.isSeparable_of_isTypeName ?_ fun word hword => ?_
    · rw [hwords, ne_eq, ← List.length_eq_zero_iff, length_slotNames, List.length_eq_zero_iff]
      exact hne
    · exact isTypeName_of_mem h (hwords ▸ hword)
  obtain ⟨found, hfound, hsame⟩ :=
    readTypes_of_spells 0 [] (length_slotNames _ _) hspell hdistinct (by simp)
  refine ⟨⟨found.map Prod.fst, s.nullable, s.acceptance, s.tense, found.map Prod.snd⟩, ?_, ?_⟩
  · rw [← toOption_readSlot _ 0, ← hf, hseparable.readSlot_toText, hwords, hfound, hnullable,
      hacceptance, htense]
    rfl
  · simp [sameSlot, hsame]

theorem notMem_slotBody {b : UInt8} (hb : b ∈ specialBytes) : b ∉ slotBody s := by
  obtain ⟨f, hf, -, -, -, hwords⟩ := exists_slotForm h
  rw [← hf]
  exact SlotForm.notMem_toText (fun word hword => isTypeName_of_mem h (hwords ▸ hword)) hb

end Written

end Pattern

end Phrasebook
