import Mathlib.Data.List.Basic
import Phrasebook.Proofs.Text.Utf8
import Phrasebook.Regex

/-!
# What a search finds

A search reads the characters of a text and gives the groups of its leftmost match, each spelled out
again.

* `Regex.Dialect.SpellsPieces` : what is relied on of a dialect, that what is found spells
  characters that stand next to each other in the text searched.
* `Regex.Dialect.SpellsPieces.infix_of_find` : in a well-formed text this is a piece of the text.
* `Regex.Node.run_map` : what a run gives, its continuation gave.
* `Regex.Node.OnlyAtStart` : a tree that matches at the start of a text or not at all.
* `Regex.Program.find_eq_some` : a program finds the leftmost match of its tree.
* `Regex.spellsPieces_backtracking` : the dialect of backtracking search can be relied on.
-/

namespace Phrasebook

namespace Text

theorem ofChars_append (cs ds : List Char) : ofChars (cs ++ ds) = ofChars cs ++ ofChars ds :=
  List.flatMap_append

theorem ofChars_chars {t : Text} (h : t.isValid) : ofChars t.chars = t := by
  obtain ⟨cs, rfl⟩ := isValid_iff.1 h
  rw [chars_ofChars]

end Text

namespace Regex

/-! ### What is relied on -/

namespace Found

/-- What was matched as a whole: the text of the first group. -/
def text (found : Found) : Text :=
  (found.groups.head?.map Group.text).getD []

end Found

namespace Dialect

/-- What is relied on of a dialect: a search reads a text as characters, with the replacement
character for each byte that spells none, and what it finds are characters that stand next to each
other there, spelled out again. -/
def SpellsPieces (dialect : Dialect) : Prop :=
  ∀ source find text found, dialect.compile source = .ok find → find text = some found →
    ∃ cs, cs <:+: text.chars ∧ found.text = Text.ofChars cs

/-- **What is found in a well-formed text is a piece of the text.** -/
theorem SpellsPieces.infix_of_find {dialect : Dialect} {source text : Text} {find : Finder}
    {found : Found} (h : dialect.SpellsPieces) (hcompile : dialect.compile source = .ok find)
    (hv : text.isValid) (hfound : find text = some found) : found.text <:+: text := by
  obtain ⟨cs, ⟨before, after, hcs⟩, htext⟩ := h source find text found hcompile hfound
  refine ⟨Text.ofChars before, Text.ofChars after, ?_⟩
  rw [htext, ← Text.ofChars_append, ← Text.ofChars_append, hcs, Text.ofChars_chars hv]

end Dialect

/-! ### Runs -/

section Maps

variable {t : Subject} (f : Place → Place)

theorem rounds_map {eager : Bool} {least : Nat} {most : Option Nat}
    {body : Place → Continuation → Option Place}
    (hbody : ∀ p k, body p (fun q => (k q).map f) = (body p k).map f) (fuel count : Nat)
    (last : Option Nat) (p : Place) (k : Continuation) :
    rounds eager least most body fuel count last p (fun q => (k q).map f) =
      (rounds eager least most body fuel count last p k).map f := by
  induction fuel generalizing count last p with
  | zero => rfl
  | succ fuel ih =>
    simp only [rounds, ih, hbody, Option.orElse_eq_or]
    split_ifs
    · rfl
    · rfl
    · exact Option.map_or.symm
    · exact Option.map_or.symm

/-- **What a run gives, its continuation gave**: to change what is given is to change what the
continuation gives. -/
theorem Node.run_map (node : Node) (p : Place) (k : Continuation) :
    node.run t p (fun q => (k q).map f) = (node.run t p k).map f := by
  induction node generalizing p k with
  | empty => rfl
  | one set ignoreCase backwards =>
    cases backwards with
    | false =>
      unfold run
      split
      · split_ifs <;> rfl
      · rfl
    | true =>
      unfold run
      split_ifs
      · rfl
      · split
        · split_ifs <;> rfl
        · rfl
  | anchor a =>
    unfold run
    split_ifs <;> rfl
  | seq first second ih ih' =>
    simp only [run, ih']
    exact ih p fun q => run t second q k
  | alt first second ih ih' =>
    simp only [run, ih, ih', Option.orElse_eq_or]
    exact Option.map_or.symm
  | capture slot takes body ih =>
    unfold run
    rw [← ih]
    congr 1
    funext q
    split <;> rfl
  | repeated eager least most body ih => exact rounds_map f ih _ _ _ _ _
  | look wanted body ih =>
    unfold run
    split
    all_goals split_ifs <;> rfl
  | atomic body ih =>
    unfold run
    split <;> rfl
  | backref slot ignoreCase backwards =>
    unfold run
    split
    · rfl
    · simp only
      split_ifs <;> rfl
  | ifSlot slot yes no ih ih' =>
    unfold run
    split_ifs
    · exact ih p k
    · exact ih' p k
  | ifLook condition yes no _ ih ih' =>
    unfold run
    split
    · exact ih _ k
    · exact ih' p k

end Maps

namespace Node

/-- The outermost group of an expression matches as what it holds does, and records from where to
where. -/
theorem run_whole (t : Subject) (body : Node) (start : Nat) :
    (Node.capture (some 0) none body).run t ⟨start, []⟩ some =
      (body.run t ⟨start, []⟩ some).map fun q =>
        q.record (some 0) (min start q.pos) (max start q.pos) :=
  run_map (fun q => q.record (some 0) (min start q.pos) (max start q.pos)) body ⟨start, []⟩ some

/-- A tree that matches at the start of a text or not at all. -/
def OnlyAtStart (node : Node) : Prop :=
  ∀ (t : Subject) (p : Place) (k : Continuation), p.pos ≠ 0 → node.run t p k = none

theorem onlyAtStart_textStart : OnlyAtStart (.anchor .textStart) := by
  intro t p k hpos
  simp [run, Subject.satisfies, hpos]

theorem OnlyAtStart.seq {first : Node} (h : first.OnlyAtStart) (second : Node) :
    OnlyAtStart (.seq first second) :=
  fun t p _ hpos => h t p _ hpos

theorem OnlyAtStart.of_alt {first second : Node} (h : OnlyAtStart (.alt first second)) :
    first.OnlyAtStart := by
  intro t p k hpos
  have hrun := h t p k hpos
  rw [run, Option.orElse_eq_or, Option.or_eq_none_iff] at hrun
  exact hrun.1

end Node

/-! ### Searches -/

/-- The characters between two places of a text. -/
def piece (cs : List Char) (i j : Nat) : List Char :=
  (cs.drop (min i j)).take (max i j - min i j)

theorem piece_zero (cs : List Char) (j : Nat) : piece cs 0 j <+: cs := by
  rw [piece, Nat.zero_min, List.drop_zero]
  exact List.take_prefix _ _

namespace Program

variable {program : Program} {text : Text} {found : Found}

/-- The first match is found, at the first position that has one. -/
theorem firstMatch_eq_some {t : Subject} {left start : Nat} {place : Place}
    (h : program.firstMatch t left start = some place) :
    ∃ k, program.root.run t ⟨k, []⟩ some = some place ∧
      ∀ i, start ≤ i → i < k → program.root.run t ⟨i, []⟩ some = none := by
  induction left generalizing start with
  | zero => cases h
  | succ left ih =>
    unfold firstMatch at h
    split at h
    · rename_i hrun
      exact ⟨start, hrun.trans h, fun i hle hlt => absurd hlt (Nat.not_lt.2 hle)⟩
    · rename_i hnone
      obtain ⟨k, hrun, hbefore⟩ := ih h
      refine ⟨k, hrun, fun i hle hlt => ?_⟩
      rcases Nat.eq_or_lt_of_le hle with rfl | hle
      · exact hnone
      · exact hbefore i hle hlt

/-- **What is found** is the leftmost match of the tree, spelled out again, when the tree records it
in the first slot. -/
theorem find_eq_some {body : Node} (hroot : program.root = .capture (some 0) none body)
    (hzero : program.slots.numbers.head? = some 0) (h : program.find text = some found) :
    ∃ start q, body.run text.chars.toArray ⟨start, []⟩ some = some q ∧
      found.text = Text.ofChars (piece text.chars start q.pos) ∧
      ∀ i < start, body.run text.chars.toArray ⟨i, []⟩ some = none := by
  unfold find at h
  obtain ⟨place, hplace, rfl⟩ := Option.map_eq_some_iff.1 h
  obtain ⟨start, hrun, hbefore⟩ := firstMatch_eq_some hplace
  simp only [hroot, Node.run_whole, Option.map_eq_none_iff] at hrun hbefore
  obtain ⟨q, hq, rfl⟩ := Option.map_eq_some_iff.1 hrun
  refine ⟨start, q, hq, ?_, fun i hi => hbefore i (Nat.zero_le i) hi⟩
  obtain ⟨others, hnumbers⟩ : ∃ others, program.slots.numbers = 0 :: others :=
    List.head?_eq_some_iff.1 hzero
  rw [Found.text, hnumbers]
  simp [Place.latest?, Place.record, piece, List.extract_eq_take_drop]

/-- What is found spells characters that stand next to each other, whatever the tree. -/
theorem exists_infix_of_find (h : program.find text = some found) :
    ∃ cs, cs <:+: text.chars ∧ found.text = Text.ofChars cs := by
  unfold find at h
  obtain ⟨place, -, rfl⟩ := Option.map_eq_some_iff.1 h
  rw [Found.text]
  cases program.slots.numbers with
  | nil => exact ⟨[], List.nil_infix, rfl⟩
  | cons n others =>
    cases hspan : place.latest? n with
    | none => exact ⟨[], List.nil_infix, by simp [hspan, Text.ofChars]⟩
    | some s =>
      refine ⟨(text.chars.drop s.start).take (s.stop - s.start), ?_, ?_⟩
      · exact (List.take_prefix _ _).isInfix.trans (List.drop_suffix _ _).isInfix
      · simp [hspan, List.extract_eq_take_drop]

end Program

theorem compile_backtracking_eq_ok {source : Text} {find : Finder} :
    backtracking.compile source = .ok find ↔
      ∃ program, Regex.compile source = .ok program ∧ program.find = find := by
  simp only [backtracking]
  cases hcompile : Regex.compile source <;> simp

theorem spellsPieces_backtracking : backtracking.SpellsPieces := by
  intro source find text found hcompile hfound
  obtain ⟨program, -, rfl⟩ := compile_backtracking_eq_ok.1 hcompile
  exact Program.exists_infix_of_find hfound

end Regex

end Phrasebook
