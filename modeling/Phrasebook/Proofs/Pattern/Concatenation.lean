import Phrasebook.Proofs.Except
import Phrasebook.Proofs.Pattern.Brackets
import Phrasebook.Proofs.Pattern.Reading

/-!
# Patterns one after the other

Compiling reads a pattern from left to right and looks ahead for the end of each group.  In a
pattern that compiles all of these ends are found, so nothing that is put after it is looked at: the
second of two patterns is read as it would be by itself, except that literal text which ends the
first and literal text which begins the second are one text.

* `Pattern.items_shift` : where a source stands shows in the positions of faults and nowhere else.
* `Pattern.items_prepend` : literal text read before a source goes in front of its items.
* `Pattern.items_append` : a source that is read leaves items and literal text behind, and what is
  put after it goes on from there.
* `Pattern.compile_append` : the items of a concatenation are the items of its two parts, joined.

A fault of the second pattern is found again in the concatenation, as many bytes later as the first
pattern has.
-/

namespace Phrasebook

namespace Pattern

variable {dialect : Regex.Dialect} {registry : Registry}

/-! ### Where faults stand -/

/-- The fault of a source that stands `n` bytes later. -/
def Fault.shift (n : Nat) (fault : Fault) : Fault :=
  { fault with pos := fault.pos + n }

theorem regexItem_shift (source : Text) (base n : Nat) :
    regexItem dialect source (base + n) =
      (regexItem dialect source base).mapError (Fault.shift n) := by
  unfold regexItem
  split <;> rfl

theorem readTypes_shift (base n : Nat) (known : List (TypeRef × Text)) (names : List Text) :
    readTypes registry (base + n) known names =
      (readTypes registry base known names).mapError (Fault.shift n) := by
  induction names generalizing known with
  | nil => rfl
  | cons name names ih =>
    simp only [readTypes]
    split_ifs
    · rfl
    · split
      · rfl
      · split_ifs
        · exact ih known
        · exact ih _

theorem readSlot_shift (inner : Text) (base n : Nat) :
    readSlot registry inner (base + n) =
      (readSlot registry inner base).mapError (Fault.shift n) := by
  unfold readSlot
  simp only [readTypes_shift]
  generalize (readAcceptance (readNullable inner).2).2 = rest
  generalize rest.takeWhile (· != 0x40) = names
  cases rest.dropWhile (· != 0x40) with
  | nil =>
    simp only
    split_ifs
    · rfl
    · cases readTypes registry base [] (Text.splitOn 0x2F names) <;> rfl
  | cons c suffix =>
    simp only
    cases tenseOfSuffix? suffix with
    | none =>
      simp only [Except.mapError, Fault.shift]
      rw [Nat.add_right_comm]
    | some tense =>
      simp only
      split_ifs
      · rfl
      · cases readTypes registry base [] (Text.splitOn 0x2F names) <;> rfl

/-! ### Groups -/

/-- What a group that does not end is reported as, by the byte that begins it. -/
def groupLabel (c : UInt8) : String :=
  if c = 0x5B then "optional group"
  else if c = 0x28 then "choice group"
  else if c = 0x3C then "regex group"
  else "slot declaration"

/-- The inside of the group that a byte begins, and what follows the group. -/
def groupInside (c : UInt8) (rest : Text) : Option (Text × Text) :=
  if c = 0x5B then enclosed 0x5B 0x5D 0 rest
  else if c = 0x28 then enclosed 0x28 0x29 0 rest
  else if c = 0x3C then enclosed 0x3C 0x3E 0 rest
  else (rest.dropWhile (· != 0x25)).tail?.map fun after => (rest.takeWhile (· != 0x25), after)

/-- The item of a group that a byte begins at `base`. -/
def groupItem (dialect : Regex.Dialect) (registry : Registry) (base : Nat) (c : UInt8)
    (inner : Text) : Except Fault Pattern :=
  if c = 0x5B then
    (items dialect registry [] (base + 1 + (inner.length - (optionalInside inner).2.length))
      (optionalInside inner).2).map fun parts =>
        optionalItem (optionalInside inner).1 (ofItems parts)
  else if c = 0x28 then
    (alternatives dialect registry (base + 1) (branches 0 inner)).map .choice
  else if c = 0x3C then regexItem dialect inner (base + 1)
  else (readSlot registry inner (base + 1)).map .slot

/-- A group is read as its inside, and what follows it afterwards. -/
theorem items_group {c : UInt8} (hc : c ∈ ([0x5B, 0x28, 0x3C, 0x25] : Text)) (pending rest : Text)
    (base : Nat) :
    items dialect registry pending base (c :: rest) =
      match groupInside c rest with
      | none => .error (unclosed base (groupLabel c))
      | some (inner, after) =>
        groupItem dialect registry base c inner >>= fun item =>
          items dialect registry [] (base + inner.length + 2) after >>= fun more =>
            .ok (textItem pending ++ item :: more) := by
  simp only [List.mem_cons, List.not_mem_nil, or_false] at hc
  rw [items.eq_def]
  obtain rfl | rfl | rfl | rfl := hc
  · simp +decide only [↓reduceIte, groupInside, groupLabel, groupItem]
    split
    · rename_i h
      simp only [h]
    · rename_i inner after h
      simp only [h]
      cases items dialect registry [] _ (optionalInside inner).2 <;> rfl
  · simp +decide only [↓reduceIte, groupInside, groupLabel, groupItem]
    split
    · rename_i h
      simp only [h]
    · rename_i inner after h
      simp only [h]
      cases alternatives dialect registry (base + 1) (branches 0 inner) <;> rfl
  · simp +decide only [↓reduceIte, groupInside, groupLabel, groupItem]
    split
    · rename_i h
      simp only [h]
    · rename_i inner after h
      simp only [h]
  · simp +decide only [↓reduceIte, groupInside, groupLabel, groupItem]
    split
    · rename_i h
      simp only [h, List.tail?_nil, Option.map_none]
    · rename_i d after h
      simp only [h, List.tail?_cons, Option.map_some]
      cases readSlot registry (rest.takeWhile (· != 0x25)) (base + 1) <;> rfl

/-- The byte that ends a group, by the byte that begins it. -/
def closingByte (c : UInt8) : UInt8 :=
  if c = 0x5B then 0x5D
  else if c = 0x28 then 0x29
  else if c = 0x3C then 0x3E
  else 0x25

theorem eq_of_groupInside {c : UInt8} {rest inner after : Text}
    (h : groupInside c rest = some (inner, after)) : rest = inner ++ closingByte c :: after := by
  unfold groupInside at h
  unfold closingByte
  split_ifs at h ⊢
  · exact enclosed_eq h
  · exact enclosed_eq h
  · exact enclosed_eq h
  · obtain ⟨_, htail, heq⟩ := Option.map_eq_some_iff.1 h
    obtain ⟨hinner, rfl⟩ := Prod.mk.inj heq
    exact (cut_iff.1 ⟨hinner, htail⟩).1

/-- The end of a group is looked for no further than it is found. -/
theorem groupInside_append {c : UInt8} {rest inner after : Text}
    (h : groupInside c rest = some (inner, after)) (q : Text) :
    groupInside c (rest ++ q) = some (inner, after ++ q) := by
  have extend {opening closing : UInt8} (hclosing : closing ≠ 0x5C)
      (h : enclosed opening closing 0 rest = some (inner, after)) :
      enclosed opening closing 0 (rest ++ q) = some (inner, after ++ q) := by
    obtain ⟨rfl, hinner⟩ := (enclosed_eq_some hclosing).1 h
    exact (enclosed_eq_some hclosing).2 ⟨by simp, hinner⟩
  unfold groupInside at h ⊢
  split_ifs at h ⊢
  · exact extend (by decide) h
  · exact extend (by decide) h
  · exact extend (by decide) h
  · obtain ⟨_, htail, heq⟩ := Option.map_eq_some_iff.1 h
    obtain ⟨hinner, rfl⟩ := Prod.mk.inj heq
    obtain ⟨rfl, hnot⟩ := cut_iff.1 ⟨hinner, htail⟩
    obtain ⟨hinner', htail'⟩ := cut_iff.2 ⟨List.append_assoc inner (0x25 :: _) q, hnot⟩
    rw [htail', hinner']
    rfl

theorem groupInside_length {c : UInt8} {rest inner after : Text}
    (h : groupInside c rest = some (inner, after)) :
    inner.length + after.length + 1 = rest.length := by
  rw [eq_of_groupInside h, List.length_append, List.length_cons]
  omega

theorem isGroup_of_groupItem {c : UInt8} {inner : Text} {base : Nat} {item : Pattern}
    (h : groupItem dialect registry base c inner = .ok item) : item.isGroup := by
  unfold groupItem at h
  split_ifs at h
  · obtain ⟨parts, -, rfl⟩ := exists_of_map_eq_ok h
    cases (optionalInside inner).1 <;> rfl
  · obtain ⟨parts, -, rfl⟩ := exists_of_map_eq_ok h
    rfl
  · unfold regexItem at h
    split at h
    · cases h
      rfl
    · cases h
  · obtain ⟨slot, -, rfl⟩ := exists_of_map_eq_ok h
    rfl

/-! ### Literal text -/

/-- A byte that begins no group is a backslash at the end of the source, or it is literal text, by
itself or with the byte that it escapes. -/
theorem exists_literal {c : UInt8} (hc : c ∉ ([0x5B, 0x28, 0x3C, 0x25] : Text)) (rest : Text) :
    (c = 0x5C ∧ rest = []) ∨
      ∃ b taken after, c :: rest = taken ++ after ∧ EscapesPaired taken ∧
        after.length < (c :: rest).length ∧
        ∀ pending base q, items dialect registry pending base (taken ++ q) =
          items dialect registry (pending ++ [b]) (base + taken.length) q := by
  simp only [List.mem_cons, List.not_mem_nil, or_false, not_or] at hc
  obtain ⟨h5B, h28, h3C, h25⟩ := hc
  by_cases h5C : c = 0x5C
  · subst h5C
    cases rest with
    | nil => exact .inl ⟨rfl, rfl⟩
    | cons d rest =>
      refine .inr ⟨d, [0x5C, d], rest, rfl, rfl, ?_,
        fun pending base q => items_escape pending q d base⟩
      simp only [List.length_cons]
      omega
  · have hpaired : EscapesPaired [c] := escapesPaired_of_notMem (by simpa using Ne.symm h5C)
    exact .inr ⟨c, [c], rest, rfl, hpaired, Nat.lt_succ_self _,
      fun pending base q => items_plain pending q base h5B h28 h3C h25 h5C⟩

/-! ### Positions -/

/-- A group moves with its inside. -/
theorem groupItem_shift {inner : Text} {n : Nat}
    (hitems : ∀ base src, src.length ≤ inner.length → items dialect registry [] (base + n) src =
      (items dialect registry [] base src).mapError (Fault.shift n))
    (halternatives : ∀ base, alternatives dialect registry (base + n) (branches 0 inner) =
      (alternatives dialect registry base (branches 0 inner)).mapError (Fault.shift n))
    (c : UInt8) (base : Nat) :
    groupItem dialect registry (base + n) c inner =
      (groupItem dialect registry base c inner).mapError (Fault.shift n) := by
  unfold groupItem
  rw [Nat.add_right_comm base n 1]
  split_ifs
  · rw [Nat.add_right_comm (base + 1) n, hitems _ _ (optionalInside_length inner), mapError_map]
  · rw [halternatives, mapError_map]
  · exact regexItem_shift inner (base + 1) n
  · rw [readSlot_shift, mapError_map]

mutual

/-- **Where a source stands** shows in the positions of faults and nowhere else. -/
theorem items_shift (pending : Text) (base : Nat) (src : Text) (n : Nat) :
    items dialect registry pending (base + n) src =
      (items dialect registry pending base src).mapError (Fault.shift n) := by
  match src with
  | [] =>
    rw [items_nil, items_nil]
    rfl
  | c :: rest =>
    by_cases hc : c ∈ ([0x5B, 0x28, 0x3C, 0x25] : Text)
    · rw [items_group hc, items_group hc]
      cases h : groupInside c rest with
      | none => rfl
      | some group =>
        obtain ⟨inner, after⟩ := group
        have hlen := groupInside_length h
        have hitem : groupItem dialect registry (base + n) c inner =
            (groupItem dialect registry base c inner).mapError (Fault.shift n) :=
          groupItem_shift (fun base src _ => items_shift [] base src n)
            (fun base => alternatives_shift base (branches 0 inner) n) c base
        have hmore := items_shift [] (base + inner.length + 2) after n
        simp only [mapError_bind]
        rw [hitem, Nat.add_right_comm base n, Nat.add_right_comm (base + inner.length) n, hmore]
        rfl
    · rcases exists_literal hc rest with ⟨rfl, rfl⟩ | ⟨b, taken, after, heq, -, hlt, hread⟩
      · rw [items_trailing, items_trailing]
        rfl
      · rw [heq, hread, hread, Nat.add_right_comm]
        exact items_shift (pending ++ [b]) (base + taken.length) after n
termination_by src.length
decreasing_by
  all_goals simp only [List.length_cons, piecesSize_branches]
  all_goals omega

theorem alternatives_shift (base : Nat) (sources : List Text) (n : Nat) :
    alternatives dialect registry (base + n) sources =
      (alternatives dialect registry base sources).mapError (Fault.shift n) := by
  match sources with
  | [] =>
    rw [alternatives, alternatives]
    rfl
  | branch :: rest =>
    rw [alternatives, alternatives, Nat.add_right_comm base n, Nat.add_right_comm base n,
      Nat.add_right_comm (base + branch.length) n, items_shift, alternatives_shift]
    simp only [mapError_bind]
    rfl
termination_by piecesSize sources
decreasing_by
  all_goals simp only [piecesSize_cons]
  all_goals have := markOf_length branch
  all_goals omega

end

/-! ### Literal text before a source -/

/-- Items with literal text put in front of them. -/
def prependText (front : Text) : List Pattern → List Pattern
  | .text content :: rest => .text (front ++ content) :: rest
  | parts => textItem front ++ parts

theorem prependText_nil (parts : List Pattern) : prependText [] parts = parts := by
  unfold prependText
  split <;> rfl

theorem prependText_cons_of_isGroup (front : Text) {item : Pattern} (h : item.isGroup)
    (more : List Pattern) : prependText front (item :: more) = textItem front ++ item :: more := by
  cases item <;> first | rfl | exact absurd h (by simp [isGroup])

theorem prependText_textItem (front pending : Text) :
    prependText front (textItem pending) = textItem (front ++ pending) := by
  cases pending with
  | nil =>
    rw [List.append_nil]
    exact List.append_nil _
  | cons b pending =>
    rw [textItem_of_ne_nil (by simp), textItem_of_ne_nil (by simp)]
    rfl

theorem prependText_textItem_cons (front pending : Text) {item : Pattern} (h : item.isGroup)
    (more : List Pattern) :
    prependText front (textItem pending ++ item :: more) =
      textItem (front ++ pending) ++ item :: more := by
  cases pending with
  | nil =>
    rw [List.append_nil]
    exact prependText_cons_of_isGroup front h more
  | cons b pending =>
    rw [textItem_of_ne_nil (by simp), textItem_of_ne_nil (by simp)]
    rfl

/-- **Literal text read before a source** goes in front of its items. -/
theorem items_prepend (front pending : Text) (base : Nat) (src : Text) :
    items dialect registry (front ++ pending) base src =
      (items dialect registry pending base src).map (prependText front) := by
  match src with
  | [] =>
    rw [items_nil, items_nil, ← prependText_textItem]
    rfl
  | c :: rest =>
    by_cases hc : c ∈ ([0x5B, 0x28, 0x3C, 0x25] : Text)
    · rw [items_group hc, items_group hc]
      cases groupInside c rest with
      | none => rfl
      | some group =>
        obtain ⟨inner, after⟩ := group
        simp only
        cases hitem : groupItem dialect registry base c inner with
        | error fault => rfl
        | ok item =>
          cases items dialect registry [] (base + inner.length + 2) after with
          | error fault => rfl
          | ok more =>
            have hgroup := isGroup_of_groupItem hitem
            exact congrArg Except.ok (prependText_textItem_cons front pending hgroup more).symm
    · rcases exists_literal hc rest with ⟨rfl, rfl⟩ | ⟨b, taken, after, heq, -, hlt, hread⟩
      · rw [items_trailing, items_trailing]
        rfl
      · rw [heq, hread, hread, List.append_assoc]
        exact items_prepend front (pending ++ [b]) (base + taken.length) after
termination_by src.length
decreasing_by exact hlt

/-! ### One source after the other -/

/-- **A source that is read** leaves items behind, the last of them a group, and literal text that
may go on; what is put after the source is read from there. -/
theorem items_append {pending : Text} {base : Nat} {p : Text} {parts : List Pattern}
    (h : items dialect registry pending base p = .ok parts) :
    ∃ done tail, parts = done ++ textItem tail ∧ (∀ item ∈ done.getLast?, item.isGroup) ∧
      ∀ q, items dialect registry pending base (p ++ q) =
        (items dialect registry tail (base + p.length) q).map (done ++ ·) := by
  match p with
  | [] =>
    rw [items_nil, Except.ok.injEq] at h
    refine ⟨[], pending, h.symm, by simp, fun q => ?_⟩
    simp only [List.nil_append, List.length_nil, Nat.add_zero]
    cases items dialect registry pending base q <;> rfl
  | c :: rest =>
    by_cases hc : c ∈ ([0x5B, 0x28, 0x3C, 0x25] : Text)
    · rw [items_group hc] at h
      cases hinside : groupInside c rest with
      | none => simp [hinside] at h
      | some group =>
        obtain ⟨inner, after⟩ := group
        simp only [hinside] at h
        obtain ⟨item, hitem, h⟩ := exists_of_bind_eq_ok h
        obtain ⟨more, hmore, h⟩ := exists_of_bind_eq_ok h
        cases h
        have hlen := groupInside_length hinside
        obtain ⟨done, tail, rfl, hlast, happend⟩ := items_append hmore
        refine ⟨textItem pending ++ item :: done, tail, by simp, ?_, fun q => ?_⟩
        · have hgroup := isGroup_of_groupItem hitem
          cases hdone : done.getLast? with
          | none => simpa [List.getLast?_append, List.getLast?_cons, hdone] using hgroup
          | some last =>
            simpa [List.getLast?_append, List.getLast?_cons, hdone] using hlast last hdone
        · have hpos : base + inner.length + 2 + after.length = base + (c :: rest).length := by
            rw [List.length_cons]
            omega
          rw [List.cons_append, items_group hc, groupInside_append hinside]
          simp only [hitem, happend, hpos]
          cases items dialect registry tail (base + (c :: rest).length) q with
          | error fault => rfl
          | ok more => exact congrArg Except.ok (by simp)
    · rcases exists_literal hc rest with ⟨rfl, rfl⟩ | ⟨b, taken, after, heq, -, hlt, hread⟩
      · rw [items_trailing] at h
        cases h
      · rw [heq, hread] at h
        obtain ⟨done, tail, hparts, hlast, happend⟩ := items_append h
        refine ⟨done, tail, hparts, hlast, fun q => ?_⟩
        rw [heq, List.append_assoc, hread, happend, List.length_append, Nat.add_assoc]
termination_by p.length
decreasing_by
  · rw [List.length_cons]
    omega
  · exact hlt

/-! ### Compiling -/

/-- Two lists of items, one after the other.  Literal text that ends the first and literal text that
begins the second become one text. -/
def joinItems (first second : List Pattern) : List Pattern :=
  match first.getLast?, second with
  | some (.text a), .text b :: rest => first.dropLast ++ .text (a ++ b) :: rest
  | _, _ => first ++ second

theorem joinItems_textItem {done : List Pattern} (hlast : ∀ item ∈ done.getLast?, item.isGroup)
    (tail : Text) (parts : List Pattern) :
    joinItems (done ++ textItem tail) parts = done ++ prependText tail parts := by
  cases tail with
  | nil =>
    rw [prependText_nil]
    unfold joinItems
    split
    · rename_i a b rest hgroup
      have := hlast _ (by simpa [textItem] using hgroup)
      simp [isGroup] at this
    · simp [textItem]
  | cons b tail =>
    rw [textItem_of_ne_nil (by simp)]
    unfold joinItems
    rw [List.getLast?_concat]
    cases parts with
    | nil => exact List.append_assoc done _ _
    | cons item more =>
      cases item with
      | text content => exact congrArg (· ++ _) List.dropLast_concat
      | _ => exact List.append_assoc done _ _

/-- The items of a concatenation, when the first source is read. -/
theorem items_concat {p : Text} {parts : List Pattern}
    (h : items dialect registry [] 0 p = .ok parts) (q : Text) :
    items dialect registry [] 0 (p ++ q) =
      ((items dialect registry [] 0 q).mapError (Fault.shift p.length)).map (joinItems parts) := by
  obtain ⟨done, tail, rfl, hlast, happend⟩ := items_append h
  have hprepend : items dialect registry tail (0 + p.length) q =
      (items dialect registry [] (0 + p.length) q).map (prependText tail) := by
    simpa using items_prepend tail [] (0 + p.length) q
  rw [happend, hprepend, items_shift]
  cases items dialect registry [] 0 q with
  | error fault => rfl
  | ok more => exact congrArg Except.ok (joinItems_textItem hlast tail more).symm

theorem items_of_compile {pattern : Text} {t : Pattern}
    (h : compile dialect registry pattern = .ok t) :
    items dialect registry [] 0 pattern = .ok t.itemList := by
  obtain ⟨parts, hread, rfl⟩ := compile_eq_ok.1 h
  rw [itemList_ofItems (isItem_of_read? hread)]
  exact toOption_eq_some.1 hread

theorem exists_compile_of_items {pattern : Text} {parts : List Pattern}
    (h : items dialect registry [] 0 pattern = .ok parts) :
    ∃ t, compile dialect registry pattern = .ok t ∧ t.itemList = parts := by
  have hread : read? dialect registry [] pattern = some parts := toOption_eq_some.2 h
  exact ⟨ofItems parts, compile_eq_ok.2 ⟨parts, hread, rfl⟩, itemList_ofItems (isItem_of_read? hread)⟩

/-- **Compiling a concatenation.**  After a pattern that compiles, any pattern compiles when it does
by itself; the items of the two together are the items of the first and those of the second, joined;
and a fault of the second is the fault of the two together, later by the bytes of the first. -/
theorem compile_append {p : Text} {s : Pattern} (hp : compile dialect registry p = .ok s)
    (q : Text) :
    ((∃ u, compile dialect registry (p ++ q) = .ok u) ↔ ∃ t, compile dialect registry q = .ok t) ∧
    (∀ t, compile dialect registry q = .ok t → ∃ u, compile dialect registry (p ++ q) = .ok u ∧
      u.itemList = joinItems s.itemList t.itemList) ∧
    (∀ e, compile dialect registry q = .error e →
      compile dialect registry (p ++ q) = .error ⟨p ++ q, e.fault.shift p.length⟩) := by
  have hboth := items_concat (items_of_compile hp) q
  have hok (t : Pattern) (ht : compile dialect registry q = .ok t) :
      ∃ u, compile dialect registry (p ++ q) = .ok u ∧
        u.itemList = joinItems s.itemList t.itemList := by
    rw [items_of_compile ht] at hboth
    exact exists_compile_of_items hboth
  have herror (e : CompileError) (he : compile dialect registry q = .error e) :
      compile dialect registry (p ++ q) = .error ⟨p ++ q, e.fault.shift p.length⟩ := by
    unfold compile at he ⊢
    rw [hboth]
    cases hq : items dialect registry [] 0 q with
    | ok parts => simp [hq] at he
    | error fault =>
      simp only [hq, Except.error.injEq] at he
      subst he
      rfl
  refine ⟨⟨fun ⟨u, hu⟩ => ?_, fun ⟨t, ht⟩ => ?_⟩, hok, herror⟩
  · cases hq : compile dialect registry q with
    | ok t => exact ⟨t, rfl⟩
    | error e =>
      rw [herror e hq] at hu
      cases hu
  · obtain ⟨u, hu, -⟩ := hok t ht
    exact ⟨u, hu⟩

/-- A pattern that ends in an escaped bracket. -/
def teaOrBracket : Text :=
  Text.ofString "(1¦tea|a \\)) or \\["

/-- What goes on with literal text, and closes a bracket that nothing opened. -/
def twoCups : Text :=
  Text.ofString "two] [2¦cups]"

/-- What goes on with a group inside a choice that does not end. -/
def openCups : Text :=
  Text.ofString "two (big|[small) cups"

/-- The bracket that the second pattern closes is not the one that ends the first, and the group that
the third leaves open is found where it stands. -/
theorem compile_append_teaOrBracket :
    ∃ s, compile Regex.backtracking Registry.empty teaOrBracket = .ok s ∧
      (∃ t u, compile Regex.backtracking Registry.empty twoCups = .ok t ∧
        compile Regex.backtracking Registry.empty (teaOrBracket ++ twoCups) = .ok u ∧
        u.itemList = joinItems s.itemList t.itemList) ∧
      compile Regex.backtracking Registry.empty (teaOrBracket ++ openCups) =
        .error ⟨teaOrBracket ++ openCups,
          ⟨teaOrBracket.length + 9, .unclosedGroup, Text.ofString "optional group"⟩⟩ := by
  have hp : (compile Regex.backtracking Registry.empty teaOrBracket).toOption.isSome := by
    decide +kernel
  have hq : (compile Regex.backtracking Registry.empty twoCups).toOption.isSome := by
    decide +kernel
  obtain ⟨s, hs⟩ := Option.isSome_iff_exists.1 hp
  obtain ⟨t, ht⟩ := Option.isSome_iff_exists.1 hq
  have hs := toOption_eq_some.1 hs
  have ht := toOption_eq_some.1 ht
  obtain ⟨u, hu, hitems⟩ := (compile_append hs twoCups).2.1 t ht
  refine ⟨s, hs, ⟨t, u, ht, hu, hitems⟩, ?_⟩
  have hfault : (compile Regex.backtracking Registry.empty openCups).map (fun _ => ()) =
      .error ⟨openCups, ⟨9, .unclosedGroup, Text.ofString "optional group"⟩⟩ := by decide +kernel
  cases hopen : compile Regex.backtracking Registry.empty openCups with
  | ok t => simp [hopen, Except.map] at hfault
  | error e =>
    obtain rfl : e = _ := by simpa [hopen, Except.map] using hfault
    rw [(compile_append hs openCups).2.2 _ hopen, Fault.shift, Nat.add_comm]

end Pattern

end Phrasebook
