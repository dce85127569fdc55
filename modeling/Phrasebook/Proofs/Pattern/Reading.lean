import Phrasebook.Proofs.Pattern.Equality

/-!
# Reading items

`Pattern.items` counts the bytes of the whole pattern for its faults only.  Here the count is
dropped, and what is left is described rule by rule.

* `Pattern.read?_eq` : the items that are read do not depend on where the source stands.
* `Pattern.read?_optional`, `Pattern.read?_choice`, `Pattern.read?_regex`, `Pattern.read?_slot` :
  a group is read exactly when its inside and what follows it are.
* `Pattern.read?_split` : literal text goes on, or what follows it is read by itself.
-/

namespace Phrasebook

namespace Pattern

variable {dialect : Regex.Dialect} {registry : Registry}

/-! ### Reading without positions -/

/-- The items of a source, or nothing where it has a fault. -/
def read? (dialect : Regex.Dialect) (registry : Registry) (pending src : Text) :
    Option (List Pattern) :=
  (items dialect registry pending 0 src).toOption

/-- The branches of a choice, or nothing where one has a fault. -/
def readBranches? (dialect : Regex.Dialect) (registry : Registry) (sources : List Text) :
    Option (List (Mark × Pattern)) :=
  (alternatives dialect registry 0 sources).toOption

/-- The time that the suffix of a slot's types selects. -/
def readTense? (rest : Text) : Option Tense :=
  match rest.dropWhile (· != 0x40) with
  | [] => some .none
  | _ :: suffix => tenseOfSuffix? suffix

/-- The slot between percent signs, or nothing where it has a fault. -/
def readSlot? (registry : Registry) (inner : Text) : Option Slot :=
  let (nullable, rest) := readNullable inner
  let (acceptance, rest) := readAcceptance rest
  (readTense? rest).bind fun tense =>
    if (rest.takeWhile (· != 0x40)).isEmpty then none
    else
      (readTypes registry 0 [] (Text.splitOn 0x2F (rest.takeWhile (· != 0x40)))).toOption.map
        fun types => ⟨types.map (·.1), nullable, acceptance, tense, types.map (·.2)⟩

theorem toOption_bind {ε α β : Type} (x : Except ε α) (f : α → Except ε β) :
    (x >>= f).toOption = x.toOption.bind fun a => (f a).toOption := by
  cases x <;> rfl

theorem toOption_ok {ε α : Type} (a : α) : (Except.ok a : Except ε α).toOption = some a := rfl

theorem toOption_eq_some {ε α : Type} {x : Except ε α} {a : α} :
    x.toOption = some a ↔ x = .ok a := by
  cases x <;> simp [Except.toOption]

theorem toOption_regexItem (source : Text) (base : Nat) :
    (regexItem dialect source base).toOption =
      (dialect.compile (Regex.anchored source)).toOption.map fun f => .regex source (some f) := by
  unfold regexItem
  split
  · rename_i h
    rw [h]
    rfl
  · rename_i h
    rw [h]
    rfl

theorem toOption_readTypes (registry : Registry) (base base' : Nat)
    (known : List (TypeRef × Text)) (names : List Text) :
    (readTypes registry base known names).toOption =
      (readTypes registry base' known names).toOption := by
  induction names generalizing known with
  | nil => rfl
  | cons name names ih =>
    simp only [readTypes]
    split_ifs
    · rfl
    · split
      · rfl
      · split_ifs
        · exact ih known
        · exact ih _

theorem toOption_readSlot (inner : Text) (base : Nat) :
    (readSlot registry inner base).toOption = readSlot? registry inner := by
  unfold readSlot? readSlot readTense?
  simp only
  generalize (readAcceptance (readNullable inner).2).2 = rest
  generalize rest.takeWhile (· != 0x40) = names
  rw [← toOption_readTypes registry base 0 [] (Text.splitOn 0x2F names)]
  cases rest.dropWhile (· != 0x40) with
  | nil =>
    simp only [Option.bind_some]
    split_ifs
    · rfl
    · cases readTypes registry base [] (Text.splitOn 0x2F names) <;> rfl
  | cons c suffix =>
    simp only
    cases tenseOfSuffix? suffix with
    | none => rfl
    | some tense =>
      simp only [Option.bind_some]
      split_ifs
      · rfl
      · cases readTypes registry base [] (Text.splitOn 0x2F names) <;> rfl

/-! ### The rules, with positions -/

theorem items_nil (pending : Text) (base : Nat) :
    items dialect registry pending base [] = .ok (textItem pending) := by
  rw [items]

theorem toOption_items_optional (pending rest : Text) (base : Nat) :
    (items dialect registry pending base (0x5B :: rest)).toOption =
      (enclosed 0x5B 0x5D 0 rest).bind fun (inner, after) =>
        (items dialect registry [] (base + 1 + (inner.length - (optionalInside inner).2.length))
          (optionalInside inner).2).toOption.bind fun parts =>
        (items dialect registry [] (base + inner.length + 2) after).toOption.bind fun more =>
          some (textItem pending ++
            optionalItem (optionalInside inner).1 (ofItems parts) :: more) := by
  rw [items.eq_def]
  simp only [↓reduceIte]
  split
  · rename_i h
    rw [h]
    rfl
  · rename_i inner after h
    rw [h]
    simp only [toOption_bind, toOption_ok, Option.bind_some]

theorem toOption_items_choice (pending rest : Text) (base : Nat) :
    (items dialect registry pending base (0x28 :: rest)).toOption =
      (enclosed 0x28 0x29 0 rest).bind fun (inner, after) =>
        (alternatives dialect registry (base + 1) (branches 0 inner)).toOption.bind fun parts =>
        (items dialect registry [] (base + inner.length + 2) after).toOption.bind fun more =>
          some (textItem pending ++ .choice parts :: more) := by
  rw [items.eq_def]
  simp +decide only [↓reduceIte]
  split
  · rename_i h
    rw [h]
    rfl
  · rename_i inner after h
    rw [h]
    simp only [toOption_bind, toOption_ok, Option.bind_some]

theorem toOption_items_regex (pending rest : Text) (base : Nat) :
    (items dialect registry pending base (0x3C :: rest)).toOption =
      (enclosed 0x3C 0x3E 0 rest).bind fun (inner, after) =>
        (regexItem dialect inner (base + 1)).toOption.bind fun item =>
        (items dialect registry [] (base + inner.length + 2) after).toOption.bind fun more =>
          some (textItem pending ++ item :: more) := by
  rw [items.eq_def]
  simp +decide only [↓reduceIte]
  split
  · rename_i h
    rw [h]
    rfl
  · rename_i inner after h
    rw [h]
    simp only [toOption_bind, toOption_ok, Option.bind_some]

theorem toOption_items_slot (pending rest : Text) (base : Nat) :
    (items dialect registry pending base (0x25 :: rest)).toOption =
      (rest.dropWhile (· != 0x25)).tail?.bind fun after =>
        (readSlot registry (rest.takeWhile (· != 0x25)) (base + 1)).toOption.bind fun slot =>
        (items dialect registry [] (base + (rest.takeWhile (· != 0x25)).length + 2)
          after).toOption.bind fun more =>
          some (textItem pending ++ .slot slot :: more) := by
  rw [items.eq_def]
  simp +decide only [↓reduceIte]
  split
  · rename_i h
    rw [h]
    rfl
  · rename_i inner after h
    rw [h]
    simp only [toOption_bind, toOption_ok, Option.bind_some, List.tail?_cons]

theorem items_trailing (pending : Text) (base : Nat) :
    items dialect registry pending base [0x5C] = .error ⟨base, .trailingEscape, []⟩ := by
  rw [items.eq_def]
  rfl

theorem items_escape (pending rest : Text) (d : UInt8) (base : Nat) :
    items dialect registry pending base (0x5C :: d :: rest) =
      items dialect registry (pending ++ [d]) (base + 2) rest := by
  rw [items.eq_def]
  rfl

theorem items_plain (pending rest : Text) {c : UInt8} (base : Nat) (h5B : c ≠ 0x5B) (h28 : c ≠ 0x28)
    (h3C : c ≠ 0x3C) (h25 : c ≠ 0x25) (h5C : c ≠ 0x5C) :
    items dialect registry pending base (c :: rest) =
      items dialect registry (pending ++ [c]) (base + 1) rest := by
  rw [items.eq_def]
  simp only [h5B, h28, h3C, h25, h5C, ↓reduceIte]

theorem toOption_alternatives_cons (base : Nat) (branch : Text) (rest : List Text) :
    (alternatives dialect registry base (branch :: rest)).toOption =
      (items dialect registry [] (base + (branch.length - (markOf branch).2.length))
        (markOf branch).2).toOption.bind fun parts =>
      (alternatives dialect registry (base + branch.length + 1) rest).toOption.bind fun more =>
        some (((markOf branch).1, ofItems parts) :: more) := by
  rw [alternatives]
  simp only [toOption_bind, toOption_ok]

/-- The items and branches that are read do not depend on where the source stands. -/
theorem toOption_eq :
    (∀ (pending : Text) (base : Nat) (src : Text) (base' : Nat),
      (items dialect registry pending base src).toOption =
        (items dialect registry pending base' src).toOption) ∧
    (∀ (base : Nat) (sources : List Text) (base' : Nat),
      (alternatives dialect registry base sources).toOption =
        (alternatives dialect registry base' sources).toOption) := by
  -- the rules pass positions on to the parts of a group and to what follows it; nothing that is
  -- read depends on them
  refine items.mutual_induct
    (fun pending base src => ∀ base', (items dialect registry pending base src).toOption =
      (items dialect registry pending base' src).toOption)
    (fun base sources => ∀ base', (alternatives dialect registry base sources).toOption =
      (alternatives dialect registry base' sources).toOption)
    ?_ ?_ ?_ ?_ ?_ ?_ ?_ ?_ ?_ ?_ ?_ ?_ ?_ ?_
  · intro pending base base'
    rw [items_nil, items_nil]
  · intro pending base rest h base'
    rw [toOption_items_optional, toOption_items_optional, h]
    rfl
  · intro pending base rest inner after h ihInner ihAfter base'
    rw [toOption_items_optional, toOption_items_optional, h]
    simp only [Option.bind_some]
    rw [ihInner (base' + 1 + (inner.length - (optionalInside inner).2.length)),
      ihAfter (base' + inner.length + 2)]
  · intro pending base rest h _ base'
    rw [toOption_items_choice, toOption_items_choice, h]
    rfl
  · intro pending base rest inner after h _ ihInner ihAfter base'
    rw [toOption_items_choice, toOption_items_choice, h]
    simp only [Option.bind_some]
    rw [ihInner (base' + 1), ihAfter (base' + inner.length + 2)]
  · intro pending base rest h _ _ base'
    rw [toOption_items_regex, toOption_items_regex, h]
    rfl
  · intro pending base rest inner after h _ _ ihAfter base'
    rw [toOption_items_regex, toOption_items_regex, h]
    simp only [Option.bind_some, toOption_regexItem]
    rw [ihAfter (base' + inner.length + 2)]
  · intro pending base rest h _ _ _ base'
    rw [toOption_items_slot, toOption_items_slot, h]
    rfl
  · intro pending base rest c after h inner _ _ _ ihAfter base'
    rw [toOption_items_slot, toOption_items_slot, h]
    simp only [List.tail?_cons, Option.bind_some, toOption_readSlot]
    rw [ihAfter (base' + inner.length + 2)]
  · intro pending base _ _ _ _ base'
    rw [items_trailing, items_trailing]
    rfl
  · intro pending base d rest _ _ _ _ ih base'
    rw [items_escape, items_escape]
    exact ih (base' + 2)
  · intro pending base c rest h5B h28 h3C h25 h5C ih base'
    rw [items_plain _ _ _ h5B h28 h3C h25 h5C, items_plain _ _ _ h5B h28 h3C h25 h5C]
    exact ih (base' + 1)
  · intro base base'
    rw [alternatives, alternatives]
  · intro base branch rest ihItems ihRest base'
    rw [toOption_alternatives_cons, toOption_alternatives_cons,
      ihItems (base' + (branch.length - (markOf branch).2.length)),
      ihRest (base' + branch.length + 1)]

theorem toOption_items (pending src : Text) (base : Nat) :
    (items dialect registry pending base src).toOption = read? dialect registry pending src :=
  toOption_eq.1 pending base src 0

theorem toOption_alternatives (sources : List Text) (base : Nat) :
    (alternatives dialect registry base sources).toOption =
      readBranches? dialect registry sources :=
  toOption_eq.2 base sources 0

/-- A pattern compiles to the tree of the items that are read from it. -/
theorem compile_eq_ok {pattern : Text} {t : Pattern} :
    compile dialect registry pattern = .ok t ↔
      ∃ parts, read? dialect registry [] pattern = some parts ∧ ofItems parts = t := by
  unfold compile read?
  cases items dialect registry [] 0 pattern <;> simp [Except.toOption]

/-! ### The rules -/

theorem read?_nil (pending : Text) :
    read? dialect registry pending [] = some (textItem pending) := by
  rw [read?, items_nil]
  rfl

theorem read?_optional {pending rest : Text} {parts : List Pattern} :
    read? dialect registry pending (0x5B :: rest) = some parts ↔
      ∃ inner after inside more, enclosed 0x5B 0x5D 0 rest = some (inner, after) ∧
        read? dialect registry [] (optionalInside inner).2 = some inside ∧
        read? dialect registry [] after = some more ∧
        textItem pending ++ optionalItem (optionalInside inner).1 (ofItems inside) :: more =
          parts := by
  rw [read?, toOption_items_optional]
  simp only [toOption_items, Option.bind_eq_some_iff, Option.some.injEq, Prod.exists,
    exists_and_left]

theorem read?_choice {pending rest : Text} {parts : List Pattern} :
    read? dialect registry pending (0x28 :: rest) = some parts ↔
      ∃ inner after inside more, enclosed 0x28 0x29 0 rest = some (inner, after) ∧
        readBranches? dialect registry (branches 0 inner) = some inside ∧
        read? dialect registry [] after = some more ∧
        textItem pending ++ .choice inside :: more = parts := by
  rw [read?, toOption_items_choice]
  simp only [toOption_items, toOption_alternatives, Option.bind_eq_some_iff, Option.some.injEq,
    Prod.exists, exists_and_left]

theorem read?_regex {pending rest : Text} {parts : List Pattern} :
    read? dialect registry pending (0x3C :: rest) = some parts ↔
      ∃ source after finder more, enclosed 0x3C 0x3E 0 rest = some (source, after) ∧
        dialect.compile (Regex.anchored source) = .ok finder ∧
        read? dialect registry [] after = some more ∧
        textItem pending ++ .regex source (some finder) :: more = parts := by
  rw [read?, toOption_items_regex]
  simp only [toOption_items, toOption_regexItem, Option.bind_eq_some_iff, Option.map_eq_some_iff,
    toOption_eq_some, Option.some.injEq, Prod.exists, exists_and_left, exists_exists_and_eq_and]

/-- A text is cut at the first byte `b` in it. -/
theorem cut_iff {b : UInt8} {t inner after : Text} :
    t.takeWhile (· != b) = inner ∧ (t.dropWhile (· != b)).tail? = some after ↔
      t = inner ++ b :: after ∧ b ∉ inner := by
  induction t generalizing inner with
  | nil => simp
  | cons a t ih =>
    by_cases hab : a = b
    · subst hab
      cases inner with
      | nil => simp
      | cons d inner =>
        simp only [bne_self_eq_false, Bool.false_eq_true, not_false_eq_true,
          List.takeWhile_cons_of_neg, List.nil_eq, List.cons_append, List.cons.injEq,
          List.mem_cons, not_or]
        simp only [reduceCtorEq, false_and, false_iff]
        rintro ⟨⟨rfl, -⟩, hne, -⟩
        exact hne rfl
    · cases inner with
      | nil => simp [hab]
      | cons d inner =>
        simp only [bne_iff_ne, ne_eq, hab, not_false_eq_true, List.takeWhile_cons_of_pos,
          List.dropWhile_cons_of_pos, List.cons_append, List.cons.injEq, List.mem_cons, not_or]
        constructor
        · rintro ⟨⟨rfl, hinner⟩, hafter⟩
          obtain ⟨ht, hb⟩ := ih.1 ⟨hinner, hafter⟩
          exact ⟨⟨rfl, ht⟩, Ne.symm hab, hb⟩
        · rintro ⟨⟨rfl, ht⟩, -, hb⟩
          obtain ⟨hinner, hafter⟩ := ih.2 ⟨ht, hb⟩
          exact ⟨⟨rfl, hinner⟩, hafter⟩

theorem read?_slot {pending rest : Text} {parts : List Pattern} :
    read? dialect registry pending (0x25 :: rest) = some parts ↔
      ∃ inner after slot more, rest = inner ++ 0x25 :: after ∧ 0x25 ∉ inner ∧
        readSlot? registry inner = some slot ∧
        read? dialect registry [] after = some more ∧
        textItem pending ++ .slot slot :: more = parts := by
  rw [read?, toOption_items_slot]
  simp only [toOption_items, toOption_readSlot, Option.bind_eq_some_iff, Option.some.injEq]
  constructor
  · rintro ⟨after, hafter, slot, hslot, more, hmore, rfl⟩
    obtain ⟨hrest, hinner⟩ := cut_iff.1 ⟨rfl, hafter⟩
    exact ⟨_, after, slot, more, hrest, hinner, hslot, hmore, rfl⟩
  · rintro ⟨inner, after, slot, more, hrest, hinner, hslot, hmore, rfl⟩
    obtain ⟨rfl, hafter⟩ := cut_iff.2 ⟨hrest, hinner⟩
    exact ⟨after, hafter, slot, hslot, more, hmore, rfl⟩

theorem read?_trailing (pending : Text) : read? dialect registry pending [0x5C] = none := by
  rw [read?, items_trailing]
  rfl

theorem read?_escape (pending rest : Text) (d : UInt8) :
    read? dialect registry pending (0x5C :: d :: rest) =
      read? dialect registry (pending ++ [d]) rest := by
  rw [read?, items_escape, toOption_items]

theorem read?_plain (pending rest : Text) {c : UInt8}
    (h : c ∉ ([0x5B, 0x28, 0x3C, 0x25, 0x5C] : Text)) :
    read? dialect registry pending (c :: rest) = read? dialect registry (pending ++ [c]) rest := by
  simp only [List.mem_cons, List.not_mem_nil, or_false, not_or] at h
  obtain ⟨h5B, h28, h3C, h25, h5C⟩ := h
  rw [read?, items_plain _ _ _ h5B h28 h3C h25 h5C, toOption_items]

theorem readBranches?_nil : readBranches? dialect registry [] = some [] := by
  rw [readBranches?, alternatives]
  rfl

theorem readBranches?_cons {branch : Text} {rest : List Text} {parts : List (Mark × Pattern)} :
    readBranches? dialect registry (branch :: rest) = some parts ↔
      ∃ inside more, read? dialect registry [] (markOf branch).2 = some inside ∧
        readBranches? dialect registry rest = some more ∧
        ((markOf branch).1, ofItems inside) :: more = parts := by
  rw [readBranches?, toOption_alternatives_cons]
  simp only [toOption_items, toOption_alternatives, Option.bind_eq_some_iff, Option.some.injEq,
    exists_and_left]

theorem readBranches?_ne_nil {sources : List Text} {parts : List (Mark × Pattern)}
    (hne : sources ≠ []) (h : readBranches? dialect registry sources = some parts) :
    parts ≠ [] := by
  cases sources with
  | nil => exact absurd rfl hne
  | cons branch rest =>
    obtain ⟨inside, more, -, -, rfl⟩ := readBranches?_cons.1 h
    simp

/-! ### Literal text and groups -/

theorem textItem_of_ne_nil {content : Text} (h : content ≠ []) :
    textItem content = [.text content] :=
  if_neg (by simpa using h)

/-- A group gives one item after the literal text before it, and what follows it is shorter. -/
theorem read?_group {pending src : Text} {c : UInt8} {parts : List Pattern}
    (hc : c ∈ ([0x5B, 0x28, 0x3C, 0x25] : Text))
    (h : read? dialect registry pending (c :: src) = some parts) :
    ∃ item more after, parts = textItem pending ++ item :: more ∧ item.isGroup ∧
      read? dialect registry [] (c :: src) = some (item :: more) ∧
      after.length < src.length ∧ read? dialect registry [] after = some more := by
  simp only [List.mem_cons, List.not_mem_nil, or_false] at hc
  obtain rfl | rfl | rfl | rfl := hc
  · obtain ⟨inner, after, inside, more, he, hi, hm, rfl⟩ := read?_optional.1 h
    refine ⟨_, more, after, rfl, ?_, read?_optional.2 ⟨_, _, _, _, he, hi, hm, rfl⟩, ?_, hm⟩
    · cases (optionalInside inner).1 <;> rfl
    · have := enclosed_length he
      omega
  · obtain ⟨inner, after, inside, more, he, hi, hm, rfl⟩ := read?_choice.1 h
    refine ⟨_, more, after, rfl, rfl, read?_choice.2 ⟨_, _, _, _, he, hi, hm, rfl⟩, ?_, hm⟩
    have := enclosed_length he
    omega
  · obtain ⟨inner, after, finder, more, he, hi, hm, rfl⟩ := read?_regex.1 h
    refine ⟨_, more, after, rfl, rfl, read?_regex.2 ⟨_, _, _, _, he, hi, hm, rfl⟩, ?_, hm⟩
    have := enclosed_length he
    omega
  · obtain ⟨inner, after, slot, more, rfl, hn, hi, hm, rfl⟩ := read?_slot.1 h
    refine ⟨_, more, after, rfl, rfl, read?_slot.2 ⟨_, _, _, _, rfl, hn, hi, hm, rfl⟩, ?_, hm⟩
    simp only [List.length_append, List.length_cons]
    omega

/-- A byte that begins no group adds one byte to the literal text, itself or the one it escapes. -/
theorem read?_literal {pending src : Text} {c : UInt8} {parts : List Pattern}
    (hc : c ∉ ([0x5B, 0x28, 0x3C, 0x25] : Text))
    (h : read? dialect registry pending (c :: src) = some parts) :
    ∃ b rest, rest.length ≤ src.length ∧
      read? dialect registry (pending ++ [b]) rest = some parts := by
  by_cases hesc : c = 0x5C
  · subst hesc
    cases src with
    | nil => simp [read?_trailing] at h
    | cons d src =>
      rw [read?_escape] at h
      exact ⟨d, src, by simp, h⟩
  · rw [read?_plain _ _ (by simp_all)] at h
    exact ⟨c, src, Nat.le_refl _, h⟩

/-- **Literal text that has been read** goes on, or what follows it is read by itself. -/
theorem read?_split {pending src : Text} {parts : List Pattern} (hp : pending ≠ [])
    (h : read? dialect registry pending src = some parts) :
    ∃ more rest, parts = .text (pending ++ more) :: rest ∧
      (more = [] → read? dialect registry [] src = some rest) := by
  match src with
  | [] =>
    rw [read?_nil, textItem_of_ne_nil hp, Option.some.injEq] at h
    exact ⟨[], [], by simp [← h], fun _ => read?_nil []⟩
  | c :: src =>
    by_cases hg : c ∈ ([0x5B, 0x28, 0x3C, 0x25] : Text)
    · -- the group reads the same when no text is pending before it
      obtain ⟨item, more, -, rfl, -, hr, -⟩ := read?_group hg h
      rw [textItem_of_ne_nil hp]
      exact ⟨[], _, by simp, fun _ => hr⟩
    · obtain ⟨b, after, hlen, h⟩ := read?_literal hg h
      obtain ⟨more, rest, rfl, -⟩ := read?_split (by simp) h
      exact ⟨b :: more, rest, by simp, by simp⟩
termination_by src.length

/-- Only the empty source has no items. -/
theorem eq_nil_of_read?_nil {src : Text} (h : read? dialect registry [] src = some []) :
    src = [] := by
  match src with
  | [] => rfl
  | c :: src =>
    by_cases hg : c ∈ ([0x5B, 0x28, 0x3C, 0x25] : Text)
    · obtain ⟨item, more, -, hnil, -⟩ := read?_group hg h
      simp at hnil
    · obtain ⟨b, after, -, h⟩ := read?_literal hg h
      obtain ⟨more, rest, hnil, -⟩ := read?_split (by simp) h
      simp at hnil

/-- A group stands between literal text and other items. -/
theorem separated_textItem_cons (pending : Text) {item : Pattern} {more : List Pattern}
    (hitem : item.isGroup) (hmore : separated more) :
    separated (textItem pending ++ item :: more) := by
  have hgroup := separated_cons_of_isGroup hitem hmore
  by_cases hp : pending = []
  · subst hp
    exact hgroup
  · rw [textItem_of_ne_nil hp]
    exact separated_text_cons hp hitem hgroup

theorem separated_textItem (pending : Text) : separated (textItem pending) := by
  by_cases hp : pending = []
  · subst hp
    rfl
  · rw [textItem_of_ne_nil hp]
    simpa [separated, isItem] using hp

/-- **Items that are read** are no empty texts, and no two neighbours are both text. -/
theorem read?_separated {pending src : Text} {parts : List Pattern}
    (h : read? dialect registry pending src = some parts) : separated parts := by
  match src with
  | [] =>
    rw [read?_nil, Option.some.injEq] at h
    subst h
    exact separated_textItem pending
  | c :: src =>
    by_cases hg : c ∈ ([0x5B, 0x28, 0x3C, 0x25] : Text)
    · obtain ⟨item, more, after, rfl, hitem, -, hlt, hmore⟩ := read?_group hg h
      exact separated_textItem_cons pending hitem (read?_separated hmore)
    · obtain ⟨b, after, hlen, h⟩ := read?_literal hg h
      exact read?_separated h
termination_by src.length

theorem isItem_of_read? {pending src : Text} {parts : List Pattern}
    (h : read? dialect registry pending src = some parts) : parts.all isItem :=
  all_isItem_of_separated (read?_separated h)

end Pattern

end Phrasebook
