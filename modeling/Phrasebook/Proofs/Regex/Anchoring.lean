import Phrasebook.Proofs.Except
import Phrasebook.Proofs.Regex.Search

/-!
# Sources that are anchored

To match only where a search begins, a source is put into a group behind the condition that the text
starts here.  A parenthesis of the source may end that group early; a bar after it then begins an
alternative that the condition does not hold for.  The first alternative always has it.

* `Regex.Dialect.ReadsAnchored` : what is relied on of a dialect, that it finds the leftmost match
  of the alternatives and that the first of them has the condition.
* `Regex.Dialect.ReadsAnchored.prefix_or_strays` : what is found begins the text, or no alternative
  matches at the start of the text and one after the first matches further on.
* `Regex.Grounded` : the groups that are open while an anchored source is read.  The first
  alternative of the outermost one begins with the condition, and it is read forwards.
* `Regex.Build.grounded_step`, `Regex.Build.grounded_run` : reading keeps this, one step and all.
* `Regex.readsAnchored_backtracking` : the dialect of backtracking search can be relied on.
-/

namespace Phrasebook

namespace Regex

/-! ### What is relied on -/

/-- An alternative of a source: from where to where it matches among the characters of a text. -/
abbrev Alternative := List Char → Nat → Nat → Prop

/-- No alternative matches at the start, but one after the first matches further on. -/
structure Strays (alternatives : List Alternative) (cs : List Char) : Prop where
  /-- Nothing matches at the start. -/
  none_at_start : ∀ a ∈ alternatives, ∀ stop, ¬ a cs 0 stop
  /-- Something that need not match at the start matches elsewhere. -/
  later : ∃ a ∈ alternatives.tail, ∃ start stop, 0 < start ∧ a cs start stop

/-- What is relied on of a dialect that reads an anchored source as it is written, `alternatives`
being what the bars outside all groups part it into. -/
structure Dialect.ReadsAnchored (dialect : Dialect) (alternatives : Text → List Alternative) :
    Prop where
  /-- What is found is what one of the alternatives matches, and none of them matches further
  left. -/
  leftmost : ∀ source find text found, dialect.compile (anchored source) = .ok find →
    find text = some found → ∃ a ∈ alternatives source, ∃ start stop, a text.chars start stop ∧
      found.text = Text.ofChars (piece text.chars start stop) ∧
      ∀ b ∈ alternatives source, ∀ i j, b text.chars i j → start ≤ i
  /-- The first alternative begins with the condition, which holds only at the start of a text. -/
  first : ∀ source find, dialect.compile (anchored source) = .ok find →
    ∃ first others, alternatives source = first :: others ∧ ∀ cs i j, first cs i j → i = 0

namespace Dialect.ReadsAnchored

variable {dialect : Dialect} {alternatives : Text → List Alternative} {source text : Text}
  {find : Finder} {found : Found}

/-- **Where an anchored source is found.**  What it finds begins the text, unless the match strays
from the start. -/
theorem prefix_or_strays (h : dialect.ReadsAnchored alternatives)
    (hcompile : dialect.compile (anchored source) = .ok find) (hv : text.isValid)
    (hfound : find text = some found) :
    found.text <+: text ∨ Strays (alternatives source) text.chars := by
  obtain ⟨a, hmem, start, stop, hmatch, htext, hleast⟩ :=
    h.leftmost source find text found hcompile hfound
  obtain ⟨first, others, halternatives, hfirst⟩ := h.first source find hcompile
  rcases Nat.eq_zero_or_pos start with rfl | hpos
  · left
    obtain ⟨rest, hrest⟩ := piece_zero text.chars stop
    refine ⟨Text.ofChars rest, ?_⟩
    rw [htext, ← Text.ofChars_append, hrest, Text.ofChars_chars hv]
  · refine .inr ⟨fun b hb j hj => ?_, a, ?_, start, stop, hpos, hmatch⟩
    · have hle := hleast b hb 0 j hj
      omega
    · rw [halternatives] at hmem ⊢
      rcases List.mem_cons.1 hmem with rfl | hmem
      · have hzero := hfirst _ _ _ hmatch
        omega
      · exact hmem

/-- With one alternative only, nothing strays. -/
theorem prefix_of_length_eq_one (h : dialect.ReadsAnchored alternatives)
    (hone : (alternatives source).length = 1)
    (hcompile : dialect.compile (anchored source) = .ok find) (hv : text.isValid)
    (hfound : find text = some found) : found.text <+: text := by
  rcases h.prefix_or_strays hcompile hv hfound with hprefix | ⟨-, a, hmem, -⟩
  · exact hprefix
  · obtain ⟨only, honly⟩ := List.length_eq_one_iff.1 hone
    rw [honly] at hmem
    cases hmem

end Dialect.ReadsAnchored

/-! ### Alternatives -/

namespace Node

variable {t : Subject} {p q : Place}

/-- What the outermost bars part a tree into. -/
def alternatives : Node → List Node
  | .alt first second => first :: second.alternatives
  | node => [node]

/-- From where to where a tree matches. -/
def Matches (node : Node) : Alternative :=
  fun cs start stop => ∃ q, node.run cs.toArray ⟨start, []⟩ some = some q ∧ q.pos = stop

theorem exists_mem_alternatives {node : Node} (h : node.run t p some = some q) :
    ∃ a ∈ node.alternatives, a.run t p some = some q := by
  induction node with
  | alt first second _ ih =>
    rw [run, Option.orElse_eq_or, Option.or_eq_some_iff] at h
    rcases h with h | ⟨-, h⟩
    · exact ⟨first, List.mem_cons_self, h⟩
    · obtain ⟨a, hmem, ha⟩ := ih h
      exact ⟨a, List.mem_cons_of_mem _ hmem, ha⟩
  | _ => exact ⟨_, List.mem_singleton_self _, h⟩

theorem run_alternatives_eq_none {node : Node} (h : node.run t p some = none) :
    ∀ a ∈ node.alternatives, a.run t p some = none := by
  induction node with
  | alt first second _ ih =>
    rw [run, Option.orElse_eq_or, Option.or_eq_none_iff] at h
    exact List.forall_mem_cons.2 ⟨h.1, ih h.2⟩
  | _ => exact List.forall_mem_singleton.2 h

namespace OnlyAtStart

variable {first : Node}

theorem eq_zero_of_matches (h : first.OnlyAtStart) {cs : List Char} {i j : Nat}
    (hmatch : first.Matches cs i j) : i = 0 := by
  obtain ⟨q, hrun, -⟩ := hmatch
  by_contra hpos
  rw [h cs.toArray ⟨i, []⟩ some hpos] at hrun
  cases hrun

theorem ofList (h : first.OnlyAtStart) (rest : List Node) :
    (Node.ofList (first :: rest)).OnlyAtStart := by
  cases rest with
  | nil => exact h
  | cons second rest => exact h.seq _

/-- Alternatives whose first one matches only at the start are parted again at their bars. -/
theorem exists_alternatives (h : first.OnlyAtStart) (others : List Node) :
    ∃ head rest, (Node.ofAlternatives (first :: others)).alternatives = head :: rest ∧
      head.OnlyAtStart := by
  cases others with
  | nil =>
    cases first with
    | alt head second => exact ⟨head, second.alternatives, rfl, h.of_alt⟩
    | _ => exact ⟨_, [], rfl, h⟩
  | cons second others => exact ⟨first, _, rfl, h⟩

end OnlyAtStart

end Node

/-! ### The outermost group -/

/-- An outermost group whose first alternative matches only at the start of a text: that alternative
is finished, or it is being read and begins with the condition. -/
def Frame.Headed (frame : Frame) : Prop :=
  frame.opening = .capture (some 0) none ∧
    ((frame.done = [] ∧ ∃ items, frame.items = items ++ [.anchor .textStart]) ∨
      ∃ done first, frame.done = done ++ [first] ∧ first.OnlyAtStart)

/-- A group with the groups around it and the options in force: the outermost group is headed, and
it is read forwards.  When a group ends, the options outside it are in force again. -/
def Grounded (frame : Frame) : List Frame → Options → Prop
  | [], options => frame.Headed ∧ options.backwards = false
  | next :: around, _ => Grounded next around frame.outer

/-- A change of the innermost group matters only where that is the outermost. -/
theorem Grounded.update {frame frame' : Frame} {around : List Frame} {options : Options}
    (h : Grounded frame around options) (houter : frame'.outer = frame.outer)
    (hheaded : frame.Headed → options.backwards = false → frame'.Headed) :
    Grounded frame' around options := by
  cases around with
  | nil => exact ⟨hheaded h.1 h.2, h.2⟩
  | cons next around =>
    change Grounded next around frame'.outer
    rw [houter]
    exact h

theorem Grounded.setOptions {frame : Frame} {around : List Frame} {options options' : Options}
    (h : Grounded frame around options) (hsame : options'.backwards = options.backwards) :
    Grounded frame around options' := by
  cases around with
  | nil => exact ⟨h.1, hsame.trans h.2⟩
  | cons next around => exact h

theorem Options.set?_backwards {options options' : Options} {letter : Nat} {value : Bool}
    (h : options.set? letter value = some options') : options'.backwards = options.backwards := by
  unfold set? at h
  simp only at h
  split_ifs at h
  all_goals
    obtain rfl := Option.some.inj h
    rfl

theorem Options.read_backwards (options : Options) (value : Bool) (s : List Nat) :
    (options.read value s).1.backwards = options.backwards := by
  induction s generalizing options value with
  | nil => rfl
  | cons c rest ih =>
    unfold read
    split_ifs
    · exact ih options false
    · exact ih options true
    · split
      · rename_i next hnext
        exact (ih next value).trans (set?_backwards hnext)
      · rfl

namespace Build

/-- The open groups of a reading are grounded. -/
def IsGrounded (b : Build) : Prop :=
  Grounded b.frame b.around b.options

variable {slots : Slots} {b b' : Build}

theorem IsGrounded.add (h : b.IsGrounded) (node : Node) : (b.add node).IsGrounded := by
  refine Grounded.update h rfl fun hheaded _ => ⟨hheaded.1, ?_⟩
  rcases hheaded.2 with ⟨hdone, items, hitems⟩ | hfinished
  · exact .inl ⟨hdone, node :: items, congrArg (node :: ·) hitems⟩
  · exact .inr hfinished

theorem IsGrounded.addAll (h : b.IsGrounded) (chars : List Nat) :
    (chars.foldl (fun b n => b.add (char b.options n)) b).IsGrounded := by
  induction chars generalizing b with
  | nil => exact h
  | cons n rest ih => exact ih (h.add _)

/-- The finished alternatives of a headed group and the one being read, in order. -/
theorem exists_first_of_headed (hheaded : b.frame.Headed)
    (hforwards : b.options.backwards = false) :
    ∃ done first, b.alternative :: b.frame.done = done ++ [first] ∧ first.OnlyAtStart := by
  rcases hheaded.2 with ⟨hdone, items, hitems⟩ | ⟨done, first, hdone, hfirst⟩
  · refine ⟨[], b.alternative, by rw [hdone]; rfl, ?_⟩
    unfold alternative
    rw [hforwards, hitems, List.reverse_append]
    exact Node.onlyAtStart_textStart.ofList _
  · exact ⟨b.alternative :: done, first, by rw [hdone]; rfl, hfirst⟩

theorem IsGrounded.alternate (h : b.IsGrounded) : b.alternate.IsGrounded := by
  refine Grounded.update h rfl fun hheaded hforwards => ⟨hheaded.1, .inr ?_⟩
  exact exists_first_of_headed hheaded hforwards

theorem grounded_of_addUnit {unit : Node} (hb : b.addUnit unit = .ok b') (h : b.IsGrounded) :
    b'.IsGrounded := by
  unfold Build.addUnit at hb
  obtain ⟨rest, -, hb⟩ := exists_of_bind_eq_ok hb
  split at hb
  · obtain ⟨⟨least, most, rest⟩, -, hb⟩ := exists_of_bind_eq_ok hb
    obtain ⟨rest, -, hb⟩ := exists_of_bind_eq_ok hb
    simp only at hb
    split at hb
    · cases hb
    · obtain rfl := Except.ok.inj hb
      exact h.add _
  · obtain rfl := Except.ok.inj hb
    exact h.add unit

/-- The end of a group puts the options outside it in force again. -/
theorem grounded_of_leave (hb : b.leave = .ok b') (h : b.IsGrounded) : b'.IsGrounded := by
  unfold Build.leave at hb
  split at hb
  · cases hb
  · rename_i frame around haround
    obtain ⟨node, -, hb⟩ := exists_of_bind_eq_ok hb
    unfold IsGrounded at h
    rw [haround] at h
    change Grounded frame around b.frame.outer at h
    split at hb
    · rename_i hcondition
      obtain rfl := Except.ok.inj hb
      refine Grounded.update h rfl fun hheaded _ => ?_
      cases hheaded.1.symm.trans hcondition.1
    · exact grounded_of_addUnit hb h

/-- A group was entered, and the options in force were noted as those outside it. -/
structure Entered (b b' : Build) : Prop where
  /-- The innermost group so far is the first one around. -/
  around : b'.around = b.frame :: b.around
  /-- Its options will be in force again. -/
  outer : b'.frame.outer = b.options

theorem entered_of_enter {c : Build} {opening : Opening}
    (hb : (.ok (c.enter b.options opening) : Except Error Build) = .ok b')
    (hframe : c.frame = b.frame) (haround : c.around = b.around) : Entered b b' := by
  obtain rfl := Except.ok.inj hb
  exact ⟨by rw [← hframe, ← haround]; rfl, rfl⟩

theorem entered_of_unnamed
    (hb : (.ok (if b.options.namedOnly ∨ b.condition then
        { b with condition := false }.enter b.options .plain
      else { b with next := b.next + 1 }.enter b.options (.capture (some b.next) none)) :
      Except Error Build) = .ok b') : Entered b b' := by
  split at hb <;> exact entered_of_enter hb rfl rfl

theorem entered_of_named {opened : Option Opening × List Nat} {e : List Nat → Error}
    (hb : (match opened with
      | (some opening, rest) => .ok ({ b with rest := rest }.enter b.options opening)
      | (none, rest) => .error (e rest)) = Except.ok b') : Entered b b' := by
  split at hb
  · exact entered_of_enter hb rfl rfl
  · cases hb

/-- What an opening parenthesis does to the open groups: it enters one, or it only sets options. -/
theorem openGroup_cases (hb : b.openGroup slots = .ok b') :
    Entered b b' ∨ (b'.around = b.around ∧ b'.frame = b.frame ∧
      b'.options.backwards = b.options.backwards) := by
  unfold Build.openGroup at hb
  simp only at hb
  split at hb
  · exact .inl (entered_of_unnamed hb)
  · split at hb
    · cases hb
    · exact .inl (entered_of_enter hb rfl rfl)
    · exact .inl (entered_of_enter hb rfl rfl)
    · exact .inl (entered_of_enter hb rfl rfl)
    · exact .inl (entered_of_enter hb rfl rfl)
    · split at hb
      · cases hb
      · cases hb
      · obtain ⟨opened, -, hb⟩ := exists_of_bind_eq_ok hb
        exact .inl (entered_of_named hb)
    · split at hb
      · exact .inl (entered_of_enter hb rfl rfl)
      · exact .inl (entered_of_enter hb rfl rfl)
      · obtain ⟨opened, -, hb⟩ := exists_of_bind_eq_ok hb
        exact .inl (entered_of_named hb)
    · obtain ⟨opened, -, hb⟩ := exists_of_bind_eq_ok hb
      exact .inl (entered_of_enter hb rfl rfl)
    · -- option letters: they hold from here on, or in a group of their own
      split at hb
      · cases hb
      · obtain rfl := Except.ok.inj hb
        refine .inr ⟨rfl, rfl, ?_⟩
        dsimp only
        split
        · rfl
        · exact Options.read_backwards _ _ _
      · exact .inl (entered_of_enter hb rfl rfl)
      · cases hb
  · exact .inl (entered_of_unnamed hb)

theorem grounded_of_openGroup (hb : b.openGroup slots = .ok b') (h : b.IsGrounded) :
    b'.IsGrounded := by
  unfold IsGrounded
  rcases openGroup_cases hb with ⟨haround, houter⟩ | ⟨haround, hframe, hbackwards⟩
  · rw [haround]
    change Grounded b.frame b.around b'.frame.outer
    rw [houter]
    exact h
  · rw [haround, hframe]
    exact Grounded.setOptions h hbackwards

/-- **One step of the reading keeps the groups grounded.** -/
theorem grounded_step (hb : b.step slots = .ok b') (h : b.IsGrounded) : b'.IsGrounded := by
  unfold step at hb
  obtain ⟨start, -, hb⟩ := exists_of_bind_eq_ok hb
  split at hb
  rename_i plain after _
  extract_lets rest addAll afterRepetition added plainDone addedButLast at hb
  -- the ordinary characters are added first, then comes what the special one does
  have hplain : plainDone.IsGrounded := h.addAll plain
  have hbutLast : addedButLast.IsGrounded := h.addAll plain.dropLast
  clear_value rest afterRepetition plainDone addedButLast
  cases rest with
  | nil =>
    obtain rfl := Except.ok.inj hb
    exact hplain
  | cons c more =>
    dsimp only at hb
    rcases eq_or_eq_of_ite_eq hb with hb | hb
    · -- a repetition takes the last of the ordinary characters
      split at hb
      · exact grounded_of_addUnit hb hbutLast
      · rcases eq_or_eq_of_ite_eq hb with hb | hb <;> cases hb
    rcases eq_or_eq_of_ite_eq hb with hb | hb
    · obtain rfl := Except.ok.inj hb
      exact hplain
    rcases eq_or_eq_of_ite_eq hb with hb | hb
    · obtain ⟨read, -, hb⟩ := exists_of_bind_eq_ok hb
      exact grounded_of_addUnit hb hplain
    rcases eq_or_eq_of_ite_eq hb with hb | hb
    · exact grounded_of_openGroup hb hplain
    rcases eq_or_eq_of_ite_eq hb with hb | hb
    · obtain rfl := Except.ok.inj hb
      exact IsGrounded.alternate (b := { plainDone with rest := more }) hplain
    rcases eq_or_eq_of_ite_eq hb with hb | hb
    · exact grounded_of_leave hb hplain
    rcases eq_or_eq_of_ite_eq hb with hb | hb
    · obtain ⟨read, -, hb⟩ := exists_of_bind_eq_ok hb
      exact grounded_of_addUnit hb hplain
    rcases eq_or_eq_of_ite_eq hb with hb | hb
    · exact grounded_of_addUnit hb hplain
    rcases eq_or_eq_of_ite_eq hb with hb | hb
    all_goals exact grounded_of_addUnit hb hplain

/-- **The whole reading keeps the groups grounded.** -/
theorem grounded_run {fuel : Nat} (hb : b.run slots fuel = .ok b') (h : b.IsGrounded) :
    b'.IsGrounded := by
  induction fuel generalizing b with
  | zero =>
    obtain rfl := Except.ok.inj hb
    exact h
  | succ fuel ih =>
    unfold run at hb
    split at hb
    · obtain rfl := Except.ok.inj hb
      exact h
    · obtain ⟨next, hnext, hb⟩ := exists_of_bind_eq_ok hb
      exact ih hb (grounded_step hnext h)

/-- The tree of an outermost group that is headed has a first alternative that matches only at the
start of a text. -/
theorem IsGrounded.exists_alternatives_of_close {root : Node} (h : b.IsGrounded)
    (haround : b.around = []) (hroot : b.close = .ok root) :
    ∃ first others, root = .capture (some 0) none (Node.ofAlternatives (first :: others)) ∧
      first.OnlyAtStart := by
  unfold IsGrounded at h
  rw [haround] at h
  obtain ⟨hheaded, hforwards⟩ := h
  obtain ⟨done, first, hparts, hfirst⟩ := exists_first_of_headed hheaded hforwards
  unfold close at hroot
  rw [hheaded.1, hparts, List.reverse_append] at hroot
  obtain rfl := Except.ok.inj hroot
  exact ⟨first, done.reverse, rfl, hfirst⟩

end Build

/-! ### The slots -/

namespace SlotScan

variable {scan scan' : SlotScan} {s : List Nat}

theorem numbers_subset_addNumber (scan : SlotScan) (n : Nat) :
    scan.numbers ⊆ (scan.addNumber n).numbers := by
  unfold addNumber
  split
  · exact List.Subset.refl _
  · exact List.subset_append_left _ _

theorem numbers_addName (scan : SlotScan) (name : Text) :
    (scan.addName name).numbers = scan.numbers := by
  unfold addName
  split <;> rfl

theorem numbers_subset_of_openGroup {read : SlotScan × List Nat} (h : scan.openGroup s = .ok read) :
    scan.numbers ⊆ read.1.numbers := by
  unfold openGroup at h
  extract_lets pushed named unnamed at h
  have hnamed {more : List Nat} (h : named more = .ok read) : scan.numbers ⊆ read.1.numbers := by
    dsimp only [named] at h
    split at h
    · split at h
      · obtain rfl := Except.ok.inj h
        exact List.Subset.refl _
      split at h
      · obtain ⟨⟨n, after⟩, -, h⟩ := exists_of_bind_eq_ok h
        obtain rfl := Except.ok.inj h
        exact numbers_subset_addNumber pushed n
      · obtain rfl := Except.ok.inj h
        exact (numbers_addName pushed _).symm ▸ List.Subset.refl _
    · obtain rfl := Except.ok.inj h
      exact List.Subset.refl _
  clear_value named
  split at h
  · extract_lets plain at h
    have hplain : plain.1.numbers = scan.numbers := by
      dsimp only [plain]
      split <;> rfl
    clear_value plain
    split at h
    · exact hnamed h
    · exact hnamed h
    · obtain rfl := Except.ok.inj h
      exact hplain ▸ List.Subset.refl _
  · split at h
    · obtain rfl := Except.ok.inj h
      exact List.Subset.refl _
    · obtain rfl := Except.ok.inj h
      exact numbers_subset_addNumber pushed _

/-- A number that is in use stays in use. -/
theorem numbers_subset_of_run {fuel : Nat} (h : run fuel scan s = .ok scan') :
    scan.numbers ⊆ scan'.numbers := by
  fun_induction run fuel scan s with
  | case1 | case2 =>
    obtain rfl := Except.ok.inj h
    exact List.Subset.refl _
  | case11 fuel scan rest _ _ _ _ _ ih =>
    obtain ⟨read, hread, h⟩ := exists_of_bind_eq_ok h
    exact List.Subset.trans (numbers_subset_of_openGroup hread) (ih read.1 read.2 h)
  | _ =>
    rename_i ih
    exact ih h

theorem numbers_subset_assign (numbers : List Nat) (next : Nat) (names : List Text) :
    numbers ⊆ (assign numbers next names).1 := by
  induction names generalizing numbers next with
  | nil => exact List.Subset.refl _
  | cons name rest ih => exact List.Subset.trans (List.subset_append_left _ _) (ih _ _)

end SlotScan

/-- The first slot of every source is the one of the whole match. -/
theorem Slots.head?_numbers_of_ofSource {s : List Nat} {slots : Slots}
    (h : Slots.ofSource s = .ok slots) : slots.numbers.head? = some 0 := by
  unfold ofSource at h
  obtain ⟨scan, hscan, h⟩ := exists_of_bind_eq_ok h
  obtain rfl := Except.ok.inj h
  have hmem : 0 ∈ (SlotScan.assign scan.numbers scan.next scan.names).1 := by
    apply SlotScan.numbers_subset_assign
    apply SlotScan.numbers_subset_of_run hscan
    exact List.mem_singleton_self 0
  generalize (SlotScan.assign scan.numbers scan.next scan.names).1 = numbers at hmem
  have hsorted := @List.pairwise_mergeSort Nat (fun a b => decide (a ≤ b)) (by grind) (by grind)
    numbers
  have hmem := (List.mergeSort_perm numbers (· ≤ ·)).mem_iff.2 hmem
  generalize numbers.mergeSort (fun a b => decide (a ≤ b)) = sorted at hsorted hmem
  cases sorted with
  | nil => cases hmem
  | cons least others =>
    rcases List.mem_cons.1 hmem with rfl | hmem
    · rfl
    · have hle := List.rel_of_pairwise_cons hsorted hmem
      rw [decide_eq_true_eq, Nat.le_zero] at hle
      rw [hle]
      rfl

/-! ### An anchored source -/

theorem exists_codes_anchored (s : Text) :
    ∃ rest, (anchored s).chars.map Char.toNat = 0x5C :: 0x41 :: 0x28 :: 0x3F :: 0x3A :: rest := by
  refine ⟨(s ++ Text.ofString ")").chars.map Char.toNat, ?_⟩
  rw [anchored, Text.ofString, List.append_assoc, Text.chars_ofChars_append, List.map_append]
  rfl

/-- The first two steps read the condition and enter the group. -/
theorem run_anchored (slots : Slots) (fuel : Nat) (rest : List Nat) :
    Build.run slots (fuel + 2)
        { rest := 0x5C :: 0x41 :: 0x28 :: 0x3F :: 0x3A :: rest
          frame := { opening := .capture (some 0) none } } =
      Build.run slots fuel
        { rest := rest
          frame := { opening := .plain }
          around := [{ opening := .capture (some 0) none, items := [.anchor .textStart] }] } :=
  rfl

/-- The tree of an anchored source has a first alternative that matches only at the start of a
text, and its first slot is that of the whole match. -/
theorem exists_alternatives_of_compile {s : Text} {program : Program}
    (h : Regex.compile (anchored s) = .ok program) :
    ∃ body first others, program.root = .capture (some 0) none body ∧
      body.alternatives = first :: others ∧ first.OnlyAtStart ∧
      program.slots.numbers.head? = some 0 := by
  unfold compile at h
  obtain ⟨rest, hcodes⟩ := exists_codes_anchored s
  simp only [hcodes] at h
  obtain ⟨slots, hslots, h⟩ := exists_of_bind_eq_ok h
  obtain ⟨b, hb, h⟩ := exists_of_bind_eq_ok h
  split at h
  · cases h
  · rename_i haround
    obtain ⟨root, hroot, h⟩ := exists_of_bind_eq_ok h
    obtain rfl := Except.ok.inj h
    rw [run_anchored] at hb
    have hgrounded := Build.grounded_run hb ⟨⟨rfl, .inl ⟨rfl, [], rfl⟩⟩, rfl⟩
    obtain ⟨first, others, rfl, hfirst⟩ :=
      hgrounded.exists_alternatives_of_close (List.isEmpty_iff.1 (not_not.1 haround)) hroot
    obtain ⟨head, rest, hparts, hhead⟩ := hfirst.exists_alternatives others
    exact ⟨_, head, rest, rfl, hparts, hhead, Slots.head?_numbers_of_ofSource hslots⟩

/-- The alternatives of the tree that an anchored source is read as. -/
def anchoredAlternatives (source : Text) : List Alternative :=
  match Regex.compile (anchored source) with
  | .ok ⟨.capture _ _ body, _⟩ => body.alternatives.map Node.Matches
  | _ => []

theorem anchoredAlternatives_eq {source : Text} {program : Program} {body : Node}
    (h : Regex.compile (anchored source) = .ok program)
    (hroot : program.root = .capture (some 0) none body) :
    anchoredAlternatives source = body.alternatives.map Node.Matches := by
  obtain ⟨root, slots⟩ := program
  obtain rfl := hroot
  simp only [anchoredAlternatives, h]

/-- **Backtracking search reads an anchored source as it is written.** -/
theorem readsAnchored_backtracking : backtracking.ReadsAnchored anchoredAlternatives where
  leftmost source find text found hcompile hfound := by
    obtain ⟨program, hprogram, rfl⟩ := compile_backtracking_eq_ok.1 hcompile
    obtain ⟨body, first, others, hroot, -, -, hzero⟩ := exists_alternatives_of_compile hprogram
    obtain ⟨start, q, hrun, htext, hbefore⟩ := Program.find_eq_some hroot hzero hfound
    obtain ⟨a, hmem, ha⟩ := Node.exists_mem_alternatives hrun
    rw [anchoredAlternatives_eq hprogram hroot]
    refine ⟨_, List.mem_map_of_mem hmem, start, q.pos, ⟨q, ha, rfl⟩, htext, ?_⟩
    rw [List.forall_mem_map]
    intro b hb i j hmatch
    obtain ⟨r, hr, -⟩ := hmatch
    by_contra hlt
    rw [Node.run_alternatives_eq_none (hbefore i (Nat.lt_of_not_le hlt)) b hb] at hr
    cases hr
  first source find hcompile := by
    obtain ⟨program, hprogram, -⟩ := compile_backtracking_eq_ok.1 hcompile
    obtain ⟨body, first, others, hroot, hparts, hfirst, -⟩ :=
      exists_alternatives_of_compile hprogram
    rw [anchoredAlternatives_eq hprogram hroot, hparts]
    exact ⟨_, _, rfl, fun _ _ _ hmatch => hfirst.eq_zero_of_matches hmatch⟩

end Regex

end Phrasebook
