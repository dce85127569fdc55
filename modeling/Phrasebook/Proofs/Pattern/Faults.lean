import Phrasebook.Proofs.Pattern.SlotGrammar

/-!
# Where faults stand

The compiler keeps count of where each part of a pattern begins, through groups in groups, the
branches of choices and the marks that are taken off them.  Here the count is shown to be right: a
fault stands where the whole pattern has the bytes that it is about.

* `Pattern.Located` : a fault and the bytes of a pattern where it stands.
* `Pattern.Located.embed` : a fault of a part is one of the whole, as much later as the part begins.
* `Pattern.compile_error_located` : **every fault of a pattern stands where it says**, and no part
  of a group ends in an open escape.
-/

namespace Phrasebook

namespace Pattern

variable {dialect : Regex.Dialect} {registry : Registry}

/-! ### Places -/

/-- A fault of a pattern, and the bytes of the pattern where it stands. -/
inductive Located (dialect : Regex.Dialect) (registry : Registry) (pattern : Text) : Fault → Prop
  /-- The byte that begins a group; the fault says which kind of group. -/
  | unclosed {before after : Text} {c : UInt8} (hc : c ∈ ([0x5B, 0x28, 0x3C, 0x25] : Text))
      (h : pattern = before ++ c :: after) :
    Located dialect registry pattern (unclosed before.length (groupLabel c))
  /-- The backslash that is the last byte, and that no other backslash escapes. -/
  | trailingEscape {before : Text} (h : pattern = before ++ [0x5C])
      (hpaired : EscapesPaired before) :
    Located dialect registry pattern ⟨before.length, .trailingEscape, []⟩
  /-- The byte after the bracket of a regular expression, which is refused. -/
  | regex {before source after reason : Text}
      (h : pattern = before ++ 0x3C :: (source ++ 0x3E :: after))
      (hreason : dialect.compile (Regex.anchored source) = .error reason) :
    Located dialect registry pattern ⟨before.length + 1, .invalidRegex, reason⟩
  /-- The first byte of what stands for a time and is none, up to the next percent sign. -/
  | badSuffix {before suffix after : Text}
      (h : pattern = before ++ 0x40 :: (suffix ++ 0x25 :: after)) (hsuffix : 0x25 ∉ suffix) :
    Located dialect registry pattern
      ⟨before.length + 1, .invalidSlot, Text.ofString "bad time suffix " ++ suffix.quoted⟩
  /-- The first byte of a slot without types, up to the next percent sign. -/
  | noWord {before inner after : Text}
      (h : pattern = before ++ 0x25 :: (inner ++ 0x25 :: after)) (hinner : 0x25 ∉ inner) :
    Located dialect registry pattern
      ⟨before.length + 1, .invalidSlot, Text.ofString "no type in " ++ inner.quoted⟩
  /-- The first byte of a slot, up to the next percent sign, with a word that does not resolve. -/
  | word {before inner after word : Text}
      (h : pattern = before ++ 0x25 :: (inner ++ 0x25 :: after)) (hinner : 0x25 ∉ inner)
      (hword : word <:+: inner) (hresolves : ¬ Resolves registry word) :
    Located dialect registry pattern (wordFault (before.length + 1) word)

theorem cause_wordFault_ne (base : Nat) (word : Text) :
    (wordFault base word).cause ≠ .trailingEscape := by
  unfold wordFault
  split_ifs <;> exact Cause.noConfusion

theorem wordFault_shift (base n : Nat) (word : Text) :
    (wordFault base word).shift n = wordFault (base + n) word := by
  unfold wordFault
  split_ifs <;> rfl

/-- **A fault of a part** is one of the whole, as much later as the part begins; an escape that is
left open has to be the end of the whole, too. -/
theorem Located.embed {source : Text} {fault : Fault} (h : Located dialect registry source fault)
    (front back : Text)
    (htrailing : fault.cause = .trailingEscape → EscapesPaired front ∧ back = []) :
    Located dialect registry (front ++ source ++ back) (fault.shift front.length) := by
  have hlength (before : Text) : before.length + front.length = (front ++ before).length := by
    rw [List.length_append, Nat.add_comm]
  cases h with
  | @unclosed before after c hc h =>
    change Located _ _ _ (Pattern.unclosed (before.length + front.length) (groupLabel c))
    have heq : front ++ source ++ back = (front ++ before) ++ c :: (after ++ back) := by simp [h]
    rw [hlength]
    exact .unclosed hc heq
  | @trailingEscape before h hpaired =>
    obtain ⟨hfront, rfl⟩ := htrailing rfl
    change Located _ _ _ ⟨before.length + front.length, .trailingEscape, []⟩
    rw [hlength]
    exact .trailingEscape (by rw [h]; simp) (hfront.append_iff.2 hpaired)
  | @regex before inner after reason h hreason =>
    change Located _ _ _ ⟨before.length + 1 + front.length, .invalidRegex, reason⟩
    have heq : front ++ source ++ back =
        (front ++ before) ++ 0x3C :: (inner ++ 0x3E :: (after ++ back)) := by simp [h]
    rw [Nat.add_right_comm, hlength]
    exact .regex heq hreason
  | @badSuffix before suffix after h hsuffix =>
    change Located _ _ _ ⟨before.length + 1 + front.length, .invalidSlot, _⟩
    have heq : front ++ source ++ back =
        (front ++ before) ++ 0x40 :: (suffix ++ 0x25 :: (after ++ back)) := by simp [h]
    rw [Nat.add_right_comm, hlength]
    exact .badSuffix heq hsuffix
  | @noWord before inner after h hinner =>
    change Located _ _ _ ⟨before.length + 1 + front.length, .invalidSlot, _⟩
    have heq : front ++ source ++ back =
        (front ++ before) ++ 0x25 :: (inner ++ 0x25 :: (after ++ back)) := by simp [h]
    rw [Nat.add_right_comm, hlength]
    exact .noWord heq hinner
  | @word before inner after word h hinner hword hresolves =>
    have heq : front ++ source ++ back =
        (front ++ before) ++ 0x25 :: (inner ++ 0x25 :: (after ++ back)) := by simp [h]
    rw [wordFault_shift, Nat.add_right_comm, hlength]
    exact .word heq hinner hword hresolves

/-- Where the escapes are paired, none is left open. -/
theorem Located.cause_ne {source : Text} {fault : Fault} (h : Located dialect registry source fault)
    (hpaired : EscapesPaired source) : fault.cause ≠ .trailingEscape := by
  cases h with
  | unclosed | regex | badSuffix | noWord => exact Cause.noConfusion
  | trailingEscape h hbefore =>
    rw [h, hbefore.append_iff] at hpaired
    cases hpaired
  | word => exact cause_wordFault_ne _ _

/-! ### Insides of groups -/

/-- The inside of brackets has its escapes paired. -/
theorem escapesPaired_of_groupInside {c : UInt8} {rest inner after : Text}
    (hc : c ∈ ([0x5B, 0x28, 0x3C] : Text)) (h : groupInside c rest = some (inner, after)) :
    EscapesPaired inner := by
  simp only [List.mem_cons, List.not_mem_nil, or_false] at hc
  obtain rfl | rfl | rfl := hc <;> exact escapesPaired_of_walk (walk_of_enclosed h)

theorem notMem_of_groupInside {rest inner after : Text}
    (h : groupInside 0x25 rest = some (inner, after)) : 0x25 ∉ inner := by
  obtain ⟨_, htail, heq⟩ := Option.map_eq_some_iff.1 h
  exact (cut_iff.1 ⟨(Prod.mk.inj heq).1, htail⟩).2

/-- What is taken off a text for its mark escapes nothing. -/
theorem exists_front_of_splitMark {t rest : Text} {mark : Mark}
    (h : splitMark t = some (mark, rest)) : ∃ front, t = front ++ rest ∧ EscapesPaired front := by
  obtain ⟨digits, heq, -, hall, -⟩ := splitMark_eq_some.1 h
  refine ⟨digits ++ markSeparator, heq, escapesPaired_of_notMem fun hmem => ?_⟩
  rcases List.mem_append.1 hmem with hmem | hmem
  · exact absurd (List.all_eq_true.1 hall _ hmem) (by decide)
  · exact absurd hmem (by decide)

theorem exists_front_optionalInside (inner : Text) :
    ∃ front, inner = front ++ (optionalInside inner).2 ∧ EscapesPaired front := by
  unfold optionalInside
  cases h : splitMark inner with
  | none => exact ⟨[], rfl, rfl⟩
  | some marked => exact exists_front_of_splitMark h

theorem exists_front_markOf (branch : Text) :
    ∃ front, branch = front ++ (markOf branch).2 ∧ EscapesPaired front := by
  unfold markOf
  cases h : splitMark branch with
  | none => exact ⟨[], rfl, rfl⟩
  | some marked => exact exists_front_of_splitMark h

/-- A slot that is read has legal parts. -/
theorem exists_isLegal_of_readSlot {inner : Text} {base : Nat} {s : Slot}
    (h : readSlot registry inner base = .ok s) :
    ∃ f : SlotForm, f.IsLegal registry ∧ f.toText = inner := by
  rcases readSlot_cases registry inner base with hlegal | ⟨f, hf, heq⟩ | ⟨fault, hread, -⟩
  · exact hlegal
  · obtain ⟨word, -, hread⟩ := hf.readSlot_toText base
    rw [heq] at hread
    cases h.symm.trans hread
  · cases h.symm.trans hread

/-- A group that is read has its escapes paired. -/
theorem escapesPaired_of_groupItem {c : UInt8} {rest inner after : Text} {base : Nat}
    {item : Pattern} (hc : c ∈ ([0x5B, 0x28, 0x3C, 0x25] : Text))
    (h : groupInside c rest = some (inner, after))
    (hitem : groupItem dialect registry base c inner = .ok item) :
    EscapesPaired (c :: (inner ++ [closingByte c])) := by
  have hinner : EscapesPaired inner := by
    by_cases hbracket : c ∈ ([0x5B, 0x28, 0x3C] : Text)
    · exact escapesPaired_of_groupInside hbracket h
    · obtain rfl : c = 0x25 := by simp_all
      -- no backslash is left in a slot whose words all resolve
      obtain ⟨s, hs, -⟩ := exists_of_map_eq_ok hitem
      obtain ⟨f, hf, rfl⟩ := exists_isLegal_of_readSlot hs
      exact escapesPaired_of_notMem
        (SlotForm.notMem_toText (fun word hword => (hf.2 word hword).1) (by decide))
  have hbytes : ∀ c ∈ ([0x5B, 0x28, 0x3C, 0x25] : Text),
      0x5C ∉ ([c] : Text) ∧ 0x5C ∉ ([closingByte c] : Text) :=
    List.all_iff_forall_prop.1 (by decide)
  obtain ⟨hopen, hclose⟩ := hbytes c hc
  have hgroup : EscapesPaired ([c] ++ (inner ++ [closingByte c])) :=
    (escapesPaired_of_notMem hopen).append_iff.2
      (hinner.append_iff.2 (escapesPaired_of_notMem hclose))
  exact hgroup

/-! ### Slots -/

theorem infix_join {b : UInt8} {words : List Text} {word : Text} (h : word ∈ words) :
    word <:+: Text.join [b] words := by
  induction words with
  | nil => cases h
  | cons first words ih =>
    by_cases hnil : words = []
    · subst hnil
      obtain rfl := List.mem_singleton.1 h
      exact List.infix_refl _
    · rw [Text.join_cons _ _ hnil]
      rcases List.mem_cons.1 h with rfl | h
      · exact ⟨[], [b] ++ Text.join [b] words, by simp⟩
      · exact (ih h).trans (List.suffix_append _ _).isInfix

theorem SlotForm.infix_toText {f : SlotForm} {word : Text} (h : word ∈ f.words) :
    word <:+: f.toText := by
  have hnames : word <:+: f.names := infix_join h
  refine hnames.trans ⟨nullableSign f.nullable ++ f.acceptance.toText, f.tense.toText, ?_⟩
  simp [SlotForm.toText]

/-- A fault of a slot that begins a text stands where the text has what it is about. -/
theorem located_readSlot {inner : Text} {fault : Fault} (hinner : 0x25 ∉ inner)
    (h : readSlot registry inner 1 = .error fault) (after : Text) :
    Located dialect registry (0x25 :: (inner ++ 0x25 :: after)) fault ∧
      fault.cause ≠ .trailingEscape := by
  have hreading := slotReading registry inner 1
  rw [h] at hreading
  generalize hresult : Except.error fault = result at hreading
  cases hreading with
  | @badSuffix front suffix heq =>
    obtain rfl := Except.error.inj hresult
    have hsuffix : 0x25 ∉ suffix := fun hmem => hinner (by rw [heq]; simp [hmem])
    have hwhole : 0x25 :: (inner ++ 0x25 :: after) =
        (0x25 :: front) ++ 0x40 :: (suffix ++ 0x25 :: after) := by simp [heq]
    rw [Nat.add_comm 1]
    exact ⟨.badSuffix hwhole hsuffix, Cause.noConfusion⟩
  | noWord =>
    obtain rfl := Except.error.inj hresult
    exact ⟨.noWord (List.nil_append _).symm hinner, Cause.noConfusion⟩
  | @words f heq hne hnotMem =>
    rcases resolves_or_exists registry f.words with
      hall | ⟨front, word, rest, hwords, hfront, hword⟩
    · rw [readTypes_of_resolves 1 [] hall] at hresult
      cases hresult
    · have hinfix : word <:+: inner := heq ▸ SlotForm.infix_toText (by simp [hwords])
      rw [hwords, readTypes_of_not_resolves 1 [] rest hfront hword] at hresult
      obtain rfl := Except.error.inj hresult
      exact ⟨.word (List.nil_append _).symm hinner hinfix hword, cause_wordFault_ne _ _⟩

/-! ### Faults of groups -/

/-- What follows a mark is read by itself, further on in the pattern. -/
theorem located_unmarked {t front source : Text} {fault : Fault} (opening back : Text)
    (ht : t = front ++ source) (hfront : EscapesPaired front) (hpaired : EscapesPaired t)
    (hlocated : ∀ own, items dialect registry [] 0 source = .error own →
      Located dialect registry source own)
    (h : items dialect registry [] (opening.length + (t.length - source.length)) source =
      .error fault) :
    Located dialect registry (opening ++ t ++ back) fault ∧ fault.cause ≠ .trailingEscape := by
  have hbase : opening.length + (t.length - source.length) = 0 + (opening ++ front).length := by
    rw [ht, List.length_append, List.length_append]
    omega
  rw [hbase, items_shift] at h
  obtain ⟨own, hown, rfl⟩ := exists_of_mapError_eq_error h
  rw [ht, hfront.append_iff] at hpaired
  have hne := (hlocated own hown).cause_ne hpaired
  refine ⟨?_, hne⟩
  rw [ht, ← List.append_assoc opening]
  exact (hlocated own hown).embed _ _ fun hbad => absurd hbad hne

/-- The faults of a group are those of its inside. -/
theorem located_groupItem {c : UInt8} {rest inner after : Text} {fault : Fault}
    (hc : c ∈ ([0x5B, 0x28, 0x3C, 0x25] : Text))
    (hinside : groupInside c rest = some (inner, after))
    (h : groupItem dialect registry 0 c inner = .error fault)
    (hitems : ∀ source fault, source.length ≤ inner.length →
      items dialect registry [] 0 source = .error fault → Located dialect registry source fault)
    (halternatives : ∀ fault, (∀ branch ∈ branches 0 inner, EscapesPaired branch) →
      alternatives dialect registry 0 (branches 0 inner) = .error fault →
        Located dialect registry (Text.join [0x7C] (branches 0 inner)) fault ∧
          fault.cause ≠ .trailingEscape) :
    Located dialect registry (c :: rest) fault ∧ fault.cause ≠ .trailingEscape := by
  have hrest := eq_of_groupInside hinside
  simp only [List.mem_cons, List.not_mem_nil, or_false] at hc
  obtain rfl | rfl | rfl | rfl := hc
  · obtain ⟨front, hfront, hmark⟩ := exists_front_optionalInside inner
    have hwhole : 0x5B :: rest = [0x5B] ++ inner ++ 0x5D :: after := by
      rw [hrest]
      rfl
    rw [hwhole]
    exact located_unmarked [0x5B] _ hfront hmark
      (escapesPaired_of_groupInside (by decide) hinside)
      (fun own => hitems _ own (optionalInside_length inner)) (eq_error_of_map_eq_error h)
  · have hpaired := escapesPaired_of_groupInside (by decide) hinside
    have hread := eq_error_of_map_eq_error h
    rw [alternatives_shift] at hread
    obtain ⟨own, hown, rfl⟩ := exists_of_mapError_eq_error hread
    obtain ⟨hlocated, hne⟩ := halternatives own (escapesPaired_of_mem_branches hpaired) hown
    rw [join_branches] at hlocated
    refine ⟨?_, hne⟩
    have hwhole : 0x28 :: rest = [0x28] ++ inner ++ 0x29 :: after := by
      rw [hrest]
      rfl
    rw [hwhole]
    exact hlocated.embed _ _ fun hbad => absurd hbad hne
  · rw [hrest]
    change regexItem dialect inner 1 = _ at h
    unfold regexItem at h
    split at h
    · cases h
    · rename_i reason hreason
      obtain rfl := Except.error.inj h
      exact ⟨.regex (List.nil_append _).symm hreason, Cause.noConfusion⟩
  · rw [hrest]
    exact located_readSlot (notMem_of_groupInside hinside) (eq_error_of_map_eq_error h) after

/-- What follows a group that is read is read by itself, further on in the pattern. -/
theorem located_after {c : UInt8} {rest inner after : Text} {item : Pattern} {fault : Fault}
    (hc : c ∈ ([0x5B, 0x28, 0x3C, 0x25] : Text))
    (hinside : groupInside c rest = some (inner, after))
    (hitem : groupItem dialect registry 0 c inner = .ok item)
    (hlocated : ∀ own, items dialect registry [] 0 after = .error own →
      Located dialect registry after own)
    (h : items dialect registry [] (0 + inner.length + 2) after = .error fault) :
    Located dialect registry (c :: rest) fault := by
  have hgroup := escapesPaired_of_groupItem hc hinside hitem
  have hbase : 0 + inner.length + 2 = 0 + (c :: (inner ++ [closingByte c])).length := by simp
  rw [hbase, items_shift] at h
  obtain ⟨own, hown, rfl⟩ := exists_of_mapError_eq_error h
  have hwhole : c :: rest = (c :: (inner ++ [closingByte c])) ++ after ++ [] := by
    rw [eq_of_groupInside hinside]
    simp
  rw [hwhole]
  exact (hlocated own hown).embed _ _ fun _ => ⟨hgroup, rfl⟩

mutual

/-- **The faults of a source** stand where the source has what they are about. -/
theorem located_items {pending src : Text} {fault : Fault}
    (h : items dialect registry pending 0 src = .error fault) :
    Located dialect registry src fault := by
  match src with
  | [] =>
    rw [items_nil] at h
    cases h
  | c :: rest =>
    by_cases hc : c ∈ ([0x5B, 0x28, 0x3C, 0x25] : Text)
    · rw [items_group hc] at h
      cases hinside : groupInside c rest with
      | none =>
        rw [hinside] at h
        obtain rfl := Except.error.inj h
        exact .unclosed hc (List.nil_append _).symm
      | some group =>
        obtain ⟨inner, after⟩ := group
        have hlen := groupInside_length hinside
        rw [hinside] at h
        rcases error_or_exists_of_bind_eq_error h with hitem | ⟨item, hitem, h⟩
        · exact (located_groupItem hc hinside hitem (fun source fault _ => located_items)
            fun fault => located_alternatives).1
        · rcases error_or_exists_of_bind_eq_error h with hmore | ⟨more, -, h⟩
          · exact located_after hc hinside hitem (fun own => located_items) hmore
          · cases h
    · rcases exists_literal hc rest with ⟨rfl, rfl⟩ | ⟨b, taken, after, heq, hpaired, hlt, hread⟩
      · rw [items_trailing] at h
        obtain rfl := Except.error.inj h
        exact .trailingEscape (List.nil_append _).symm rfl
      · rw [heq, hread, items_shift] at h
        obtain ⟨own, hown, rfl⟩ := exists_of_mapError_eq_error h
        have hlocated := (located_items hown).embed taken [] fun _ => ⟨hpaired, rfl⟩
        rwa [List.append_nil, ← heq] at hlocated
termination_by src.length
decreasing_by
  all_goals simp only [List.length_cons, piecesSize_branches]
  all_goals omega

/-- The faults of branches stand where the choice has what they are about. -/
theorem located_alternatives {sources : List Text} {fault : Fault}
    (hpaired : ∀ source ∈ sources, EscapesPaired source)
    (h : alternatives dialect registry 0 sources = .error fault) :
    Located dialect registry (Text.join [0x7C] sources) fault ∧ fault.cause ≠ .trailingEscape := by
  match sources with
  | [] =>
    rw [alternatives] at h
    cases h
  | branch :: rest =>
    obtain ⟨hbranch, hrest⟩ := List.forall_mem_cons.1 hpaired
    rw [alternatives] at h
    rcases error_or_exists_of_bind_eq_error h with hread | ⟨parts, -, h⟩
    · obtain ⟨front, hfront, hmark⟩ := exists_front_markOf branch
      have hwhole : ∃ back, Text.join [0x7C] (branch :: rest) = [] ++ branch ++ back := by
        by_cases hnil : rest = []
        · exact ⟨[], by rw [hnil, List.append_nil]; rfl⟩
        · refine ⟨[0x7C] ++ Text.join [0x7C] rest, ?_⟩
          rw [Text.join_cons _ _ hnil, List.append_assoc]
          rfl
      obtain ⟨back, hwhole⟩ := hwhole
      rw [hwhole]
      exact located_unmarked [] back hfront hmark hbranch (fun own => located_items) hread
    · rcases error_or_exists_of_bind_eq_error h with hmore | ⟨more, -, h⟩
      · have hne : rest ≠ [] := by
          rintro rfl
          rw [alternatives] at hmore
          cases hmore
        have hbase : 0 + branch.length + 1 = 0 + (branch ++ [0x7C]).length := by simp
        rw [hbase, alternatives_shift] at hmore
        obtain ⟨own, hown, rfl⟩ := exists_of_mapError_eq_error hmore
        obtain ⟨hlocated, hcause⟩ := located_alternatives hrest hown
        have hwhole := hlocated.embed (branch ++ [0x7C]) [] fun hbad => absurd hbad hcause
        rw [List.append_nil, ← Text.join_cons _ _ hne] at hwhole
        exact ⟨hwhole, hcause⟩
      · cases h
termination_by piecesSize sources
decreasing_by
  all_goals simp only [piecesSize_cons]
  all_goals have := markOf_length branch
  all_goals omega

end

/-- No part of a group, at any depth, is said to end in an open escape. -/
theorem cause_ne_of_groupItem {base : Nat} {c : UInt8} {rest inner after : Text} {fault : Fault}
    (hc : c ∈ ([0x5B, 0x28, 0x3C, 0x25] : Text))
    (hinside : groupInside c rest = some (inner, after))
    (h : groupItem dialect registry base c inner = .error fault) :
    fault.cause ≠ .trailingEscape := by
  have hshift : groupItem dialect registry (0 + base) c inner =
      (groupItem dialect registry 0 c inner).mapError (Fault.shift base) :=
    groupItem_shift (fun b source _ => items_shift [] b source base)
      (fun b => alternatives_shift b (branches 0 inner) base) c 0
  rw [Nat.zero_add, h] at hshift
  obtain ⟨own, hown, rfl⟩ := exists_of_mapError_eq_error hshift.symm
  exact (located_groupItem hc hinside hown (fun source fault _ => located_items)
    fun fault => located_alternatives).2

/-- **Every fault of a pattern stands where it says.**  The error repeats the pattern, and the fault
stands where the pattern has the bytes that it is about; no part of a group, at any depth, is said
to end in an open escape. -/
theorem compile_error_located {pattern : Text} {e : CompileError}
    (h : compile dialect registry pattern = .error e) :
    e.pattern = pattern ∧ Located dialect registry pattern e.fault ∧
      ∀ base c rest inner after fault, c ∈ ([0x5B, 0x28, 0x3C, 0x25] : Text) →
        groupInside c rest = some (inner, after) →
        groupItem dialect registry base c inner = .error fault →
        fault.cause ≠ .trailingEscape := by
  unfold compile at h
  split at h
  · cases h
  · rename_i fault hfault
    obtain rfl := Except.error.inj h
    exact ⟨rfl, located_items hfault,
      fun base c rest inner after fault hc hinside hitem => cause_ne_of_groupItem hc hinside hitem⟩

/-- A pattern with its fault in a slot, in the second branch of a choice, in an optional part; the
branch and the part have marks. -/
def lostPlanet : Text :=
  Text.ofString "a\\[[3¦b(c|7¦%-number/planet%)]"

theorem compile_error_located_lostPlanet :
    compile Regex.backtracking builtinTypes lostPlanet =
        .error ⟨lostPlanet, 15, .unknownType, Text.ofString "planet"⟩ ∧
      Located Regex.backtracking builtinTypes lostPlanet
        ⟨15, .unknownType, Text.ofString "planet"⟩ := by
  have hfails : (compile Regex.backtracking builtinTypes lostPlanet).map (fun _ => ()) =
      .error ⟨lostPlanet, 15, .unknownType, Text.ofString "planet"⟩ := by decide +kernel
  have herror := eq_error_of_map_eq_error hfails
  exact ⟨herror, (compile_error_located herror).2.1⟩

end Pattern

end Phrasebook
