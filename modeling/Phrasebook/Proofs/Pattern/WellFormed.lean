import Phrasebook.Proofs.Pattern.Nodes
import Phrasebook.Proofs.Pattern.RoundTrip

/-!
# The shape of compiled trees

What else is done with trees takes for granted how compiling makes them: sequences are flat, literal
text is in one piece, choices have branches, slots have types, and what a regular expression or a
slot refers to is what its own text stands for.  None of this asks that the bytes of the pattern are
well-formed.

* `Pattern.WellFormed` : what a node of a compiled tree is like.
* `Pattern.separated_iff` : items in a row, said of single items and of neighbours.
* `Pattern.spelled_of_readSlot?` : the types of a slot that is read, and the spellings beside them.
* `Pattern.allNodes_wellFormed_of_compile` : **every node of a compiled tree is well formed.**
-/

namespace Phrasebook

namespace Pattern

variable {dialect : Regex.Dialect} {registry : Registry}

/-- A node is well formed when it can come out of compiling, by its kind. -/
def WellFormed (dialect : Regex.Dialect) (registry : Registry) : Pattern → Prop
  | .text _ | .optional _ => True
  -- several parts, none of them a sequence or an empty text, and no two texts side by side
  | .sequence children =>
    2 ≤ children.length ∧ (∀ p ∈ children, p ≠ .text [] ∧ ∀ parts, p ≠ .sequence parts) ∧
      children.IsChain fun p q => ∀ a b, p = .text a → q ≠ .text b
  | .choice alternatives =>
    alternatives ≠ [] ∧
      ∀ branch ∈ alternatives, 0 ≤ branch.1.toInt ∧ branch.1.toInt ≤ Int.pow 2 63 - 1
  -- what the source was compiled to; in the source the angle brackets balance
  | .regex source finder =>
    (∃ find, finder = some find ∧ dialect.compile (Regex.anchored source) = .ok find) ∧
      balances 0x3C 0x3E source
  -- types that differ, and as many spellings, each of which stands for the type beside it
  | .slot s =>
    s.types ≠ [] ∧ s.types.Pairwise (fun a b => a.same b = false) ∧
      List.Forall₂ (fun spelling ref => registry.typeRef? spelling = some ref) s.spellings s.types
  | .unknown _ => False

theorem isItem_iff {p : Pattern} : p.isItem ↔ p ≠ .text [] ∧ ∀ parts, p ≠ .sequence parts := by
  cases p <;> simp [isItem]

theorem isText_iff {p : Pattern} : p.isText ↔ ∃ content, p = .text content := by
  cases p <;> simp [isText]

/-- Items in a row are said of single items and of neighbours. -/
theorem separated_iff {parts : List Pattern} : separated parts ↔
    (∀ p ∈ parts, p.isItem) ∧ parts.IsChain fun p q => p.isText → ¬ q.isText := by
  match parts with
  | [] => simp
  | [p] => simp
  | p :: q :: rest =>
    have ih := @separated_iff (q :: rest)
    rw [separated, Bool.and_eq_true, Bool.and_eq_true, ih, List.forall_mem_cons,
      List.isChain_cons_cons, Bool.not_eq_true', Bool.and_eq_false_iff]
    cases p.isText <;> cases q.isText <;> simp [and_assoc]

/-- A slot that is read has types, no two of them the same, and each is what the registry makes of
the spelling beside it. -/
theorem spelled_of_readSlot? {inner : Text} {s : Slot} (h : readSlot? registry inner = some s) :
    s.types ≠ [] ∧ s.types.Pairwise (fun a b => a.same b = false) ∧
      List.Forall₂ (fun spelling ref => registry.typeRef? spelling = some ref)
        s.spellings s.types := by
  obtain ⟨-, -, hne, hdistinct, -⟩ := isNormal_iff.1 (isNormal_of_readSlot? h)
  simp only [readSlot?, Option.bind_eq_some_iff] at h
  obtain ⟨tense, -, h⟩ := h
  split_ifs at h
  obtain ⟨types, htypes, rfl⟩ := Option.map_eq_some_iff.1 h
  refine ⟨hne, hdistinct, ?_⟩
  rw [List.forall₂_map_left_iff, List.forall₂_map_right_iff, List.forall₂_same]
  exact typeRef?_of_readTypes (toOption_eq_some.1 htypes) (by simp)

/-- **Every node of a compiled tree is well formed**, whatever the bytes of the pattern. -/
theorem allNodes_wellFormed_of_compile {source : Text} {t : Pattern}
    (h : compile dialect registry source = .ok t) : AllNodes (WellFormed dialect registry) t := by
  refine allNodes_of_compile ⟨fun _ => trivial, ?_, fun _ => trivial, ?_, ?_, ?_⟩ h
  · intro children hlen hs
    obtain ⟨hitem, hchain⟩ := separated_iff.1 hs
    refine ⟨hlen, fun p hp => isItem_iff.1 (hitem p hp), hchain.imp fun p q hpq a b hp hq => ?_⟩
    exact hpq (isText_iff.2 ⟨a, hp⟩) (isText_iff.2 ⟨b, hq⟩)
  · intro alternatives hne hmark
    refine ⟨hne, fun branch hbranch => ⟨hmark branch hbranch, ?_⟩⟩
    exact Int.le_sub_one_of_lt branch.1.toInt_lt
  · intro source find hbalances hfind
    exact ⟨⟨find, rfl, hfind⟩, hbalances⟩
  · intro inner s hs
    exact spelled_of_readSlot? hs

/-- A pattern with a group of every kind, in which a mark, an escape and a bare byte stand next to
groups, a choice has an empty branch, and a slot names one type twice. -/
def orderForm : Text :=
  Text.ofString "a\\[b[3¦c(|d)]<x(?<y>[0-9])>%-*numbers/number/numbers@1%" ++ [0xFF]

/-- It is not well-formed UTF-8, and its tree is well formed all the same. -/
theorem allNodes_wellFormed_orderForm : ¬ orderForm.isValid ∧
    ∃ t, compile Regex.backtracking builtinTypes orderForm = .ok t ∧
      AllNodes (WellFormed Regex.backtracking builtinTypes) t := by
  have hcompiles : (compile Regex.backtracking builtinTypes orderForm).toOption.isSome := by
    decide +kernel
  obtain ⟨t, ht⟩ := Option.isSome_iff_exists.1 hcompiles
  have ht := toOption_eq_some.1 ht
  exact ⟨by decide +kernel, t, ht, allNodes_wellFormed_of_compile ht⟩

end Pattern

end Phrasebook
