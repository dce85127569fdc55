import Phrasebook.Literal
import Phrasebook.Proofs.Literal.Joining
import Phrasebook.Proofs.Registry.Runs

/-!
# Strings and lists of strings

A string of any bytes is written between quotes, with the quotes inside it doubled.  Strings written
so read back, and nothing else reads as a string.  Put together as a list they read back as well.

* `LiteralForm.quote` : a string as it is written.
* `LiteralForm.readStringBody_doubled_append` : the bytes of a written string are read, whatever
  stands after them.
* `LiteralForm.readString_eq_some_iff` : **a text reads as a string** just when it is that string as
  it is written, so that each string is written in one way alone.
* `Registry.literal_of_builtin` : how the constants of a built-in type are written.
* `Literal.isAtom_quote` : a written string can stand as an item of a list, whatever it holds.
* `Literal.readString_joined` : two written strings in one text are no string.
* `Literal.read_joined_quotes` : **a list of strings reads back** as a literal of the plural string
  type, and as one of the singular string type when there is one string alone.
-/

namespace Phrasebook

/-! ### Writing strings -/

namespace LiteralForm

/-- The bytes of a string, with each quote doubled. -/
def doubled : Text → Text
  | [] => []
  | b :: rest => if b = quoteByte then b :: b :: doubled rest else b :: doubled rest

/-- A string between quotes. -/
def quote (t : Text) : Text :=
  quoteByte :: (doubled t ++ [quoteByte])

section Body

variable {b : UInt8} {rest : Text}

theorem doubled_quote : doubled (quoteByte :: rest) = quoteByte :: quoteByte :: doubled rest := by
  rw [doubled, if_pos rfl]

theorem doubled_plain (hb : b ≠ quoteByte) : doubled (b :: rest) = b :: doubled rest := by
  rw [doubled, if_neg hb]

theorem readStringBody_quotes :
    readStringBody (quoteByte :: quoteByte :: rest) =
      (readStringBody rest).map (quoteByte :: ·) := by
  rw [readStringBody, if_pos rfl, if_pos rfl]

theorem readStringBody_plain (hb : b ≠ quoteByte) :
    readStringBody (b :: rest) = (readStringBody rest).map (b :: ·) := by
  cases rest <;> simp [readStringBody, hb]

end Body

/-- Where a string was written, the string is read whatever stands after it: its quotes are taken in
pairs, and no pair reaches past its end. -/
theorem readStringBody_doubled_append (t rest : Text) :
    readStringBody (doubled t ++ rest) = (readStringBody rest).map (t ++ ·) := by
  induction t with
  | nil => simp [doubled]
  | cons b t ih =>
    by_cases hb : b = quoteByte
    · rw [hb, doubled_quote, List.cons_append, List.cons_append, readStringBody_quotes, ih,
        Option.map_map]
      rfl
    · rw [doubled_plain hb, List.cons_append, readStringBody_plain hb, ih, Option.map_map]
      rfl

/-- What was read was written: a pair of quotes for each quote of the string, and a quote alone
nowhere but at the end. -/
theorem eq_doubled_of_readStringBody {t s : Text} (h : readStringBody t = some s) :
    t = doubled s ++ [quoteByte] := by
  fun_induction readStringBody t generalizing s with
  | case1 => cases h
  | case2 =>
    cases h
    rfl
  | case3 rest ih =>
    obtain ⟨s, hs, rfl⟩ := Option.map_eq_some_iff.1 h
    rw [doubled_quote, List.cons_append, List.cons_append, ← ih hs]
  | case4 => cases h
  | case5 b rest hb ih =>
    obtain ⟨s, hs, rfl⟩ := Option.map_eq_some_iff.1 h
    rw [doubled_plain hb, List.cons_append, ← ih hs]

/-- **A string reads back** from between its quotes. -/
theorem readString_quote (t : Text) : readString (quote t) = some t := by
  rw [quote, readString, if_pos rfl, readStringBody_doubled_append]
  simp [readStringBody]

/-- Only a string between its quotes is read. -/
theorem eq_quote_of_readString {t s : Text} (h : readString t = some s) : t = quote s := by
  cases t with
  | nil => cases h
  | cons b rest =>
    by_cases hb : b = quoteByte
    · rw [readString, if_pos hb] at h
      rw [hb, quote, eq_doubled_of_readStringBody h]
    · rw [readString, if_neg hb] at h
      cases h

/-- **Reading undoes writing and takes nothing else**: the texts that are read are the strings
between their quotes, so that each string is written in one way alone. -/
theorem readString_eq_some_iff (t s : Text) :
    (readString t = some s ↔ t = quote s) ∧ ∃! u, readString u = some s := by
  constructor
  · constructor
    · exact eq_quote_of_readString
    · rintro rfl
      exact readString_quote s
  · refine ⟨quote s, readString_quote s, ?_⟩
    intro u hu
    exact eq_quote_of_readString hu

-- of quotes alone, an odd number is no string
example : readString (List.replicate 5 quoteByte) = none ∧
    readString (List.replicate 6 quoteByte) = some [quoteByte, quoteByte] := by decide

/-- A quote that is not doubled ends a string, so that nothing else may come after it. -/
theorem readString_quote_append {b : UInt8} (hb : b ≠ quoteByte) (t rest : Text) :
    readString (quote t ++ b :: rest) = none := by
  have hend : readStringBody ([quoteByte] ++ b :: rest) = none := by
    rw [List.singleton_append, readStringBody, if_pos rfl, if_neg hb]
  rw [quote, List.cons_append, List.append_assoc, readString, if_pos rfl,
    readStringBody_doubled_append, hend]
  rfl

end LiteralForm

/-! ### The string type -/

namespace Registry

/-- A built-in type has the written form that is listed under its name. -/
theorem literal_of_builtin {dialect : Regex.Dialect} {name : Text} {type : ValueType}
    (h : (Registry.empty.registerBuiltins dialect).1.typeNamed? name = some type) :
    ∃ e ∈ builtins, e.name = name ∧ type.literal = some e.literal := by
  have hmem := List.mem_of_find?_eq_some h
  have hname : type.name = name := by simpa using List.find?_some h
  rcases mem_types_of_registerAll hmem with hempty | ⟨e, he, htype, hliteral⟩
  · exact absurd hempty List.not_mem_nil
  · exact ⟨e, he, htype.symm.trans hname, hliteral⟩

/-- The built-in string type reads texts between quotes. -/
theorem literal_of_string {dialect : Regex.Dialect} {type : ValueType}
    (h : (Registry.empty.registerBuiltins dialect).1.typeNamed? (Text.ofString "string") =
      some type) : type.literal = some .string := by
  have hform : ∀ e ∈ builtins, e.name = Text.ofString "string" → e.literal = .string := by
    decide +kernel
  obtain ⟨e, he, hname, hliteral⟩ := literal_of_builtin h
  rw [hliteral, hform e he hname]

end Registry

namespace Literal

open LiteralForm

/-! ### Written strings as items -/

theorem endsQuoted_quote_cons (t : Text) : endsQuoted (quoteByte :: t) = !endsQuoted t :=
  (endsQuoted_append [quoteByte] t).trans (Bool.true_xor _)

theorem endsQuoted_plain_cons {b : UInt8} (hb : b ≠ quoteByte) (t : Text) :
    endsQuoted (b :: t) = endsQuoted t := by
  have hself : endsQuoted [b] = false := (endsQuoted_singleton b).trans (beq_eq_false_iff_ne.2 hb)
  have happend := endsQuoted_append [b] t
  rwa [hself, Bool.false_xor] at happend

theorem endsQuoted_doubled (t : Text) : endsQuoted (doubled t) = false := by
  induction t with
  | nil => rfl
  | cons b rest ih =>
    by_cases hb : b = quoteByte
    · rw [hb, doubled_quote, endsQuoted_quote_cons, endsQuoted_quote_cons, ih]
      rfl
    · rw [doubled_plain hb, endsQuoted_plain_cons hb, ih]

/-- Before a byte of a string that is no quote, only whole pairs of quotes are written. -/
theorem endsQuoted_of_doubled {t before after : Text} {b : UInt8} (hb : b ≠ quoteByte)
    (h : doubled t ++ [quoteByte] = before ++ b :: after) : endsQuoted before = false := by
  induction t generalizing before with
  | nil =>
    cases before with
    | nil => exact absurd (List.cons.inj h).1.symm hb
    | cons d before => simp [doubled] at h
  | cons d t ih =>
    by_cases hd : d = quoteByte
    · subst hd
      rw [doubled_quote] at h
      -- the byte stands after both of the quotes
      rcases before with _ | ⟨first, _ | ⟨second, before⟩⟩
      · exact absurd (List.cons.inj h).1.symm hb
      · exact absurd (List.cons.inj (List.cons.inj h).2).1.symm hb
      · obtain ⟨rfl, rfl, hrest⟩ : quoteByte = first ∧ quoteByte = second ∧
            doubled t ++ [quoteByte] = before ++ b :: after := by simpa using h
        rw [endsQuoted_quote_cons, endsQuoted_quote_cons, ih hrest]
        rfl
    · rw [doubled_plain hd] at h
      cases before with
      | nil => rfl
      | cons first before =>
        obtain ⟨rfl, hrest⟩ : d = first ∧ doubled t ++ [quoteByte] = before ++ b :: after := by
          simpa using h
        rw [endsQuoted_plain_cons hd, ih hrest]

/-- A byte of a written string that is no quote stands inside quotes. -/
theorem endsQuoted_take_quote {t : Text} {b : UInt8} {i : Nat} (hb : b ≠ quoteByte)
    (h : (quote t)[i]? = some b) : endsQuoted ((quote t).take i) := by
  obtain ⟨hi, hget⟩ := List.getElem?_eq_some_iff.1 h
  have hsplit : quote t = (quote t).take i ++ b :: (quote t).drop (i + 1) := by
    rw [← hget, List.getElem_cons_drop, List.take_append_drop]
  cases hbefore : (quote t).take i with
  | nil =>
    rw [hbefore] at hsplit
    exact absurd (List.cons.inj hsplit).1.symm hb
  | cons first before =>
    rw [hbefore] at hsplit
    obtain ⟨rfl, hbody⟩ := List.cons.inj hsplit
    rw [endsQuoted_quote_cons, endsQuoted_of_doubled hb hbody]
    rfl

theorem lowerByte_quote_notMem (c : Conjunction) : lowerByte quoteByte ∉ c.word := by
  cases c <;> decide

/-- A conjunction that stands as a word does not begin with a quote. -/
theorem exists_of_hasWordAt {c : Conjunction} {t : Text} {i : Nat} (h : hasWordAt c t i) :
    ∃ b, t[i]? = some b ∧ b ≠ quoteByte := by
  simp only [hasWordAt, Bool.and_eq_true, beq_iff_eq] at h
  obtain ⟨⟨hletters, -⟩, -⟩ := h
  cases hdrop : t.drop i with
  | nil =>
    rw [hdrop, List.take_nil] at hletters
    cases c <;> cases hletters
  | cons b rest =>
    refine ⟨b, ?_, ?_⟩
    · rw [← List.head?_drop, hdrop]
      rfl
    · rintro rfl
      have hmem : lowerByte quoteByte ∈ c.word := by
        rw [← hletters, hdrop]
        cases c <;> exact List.mem_cons_self
      exact lowerByte_quote_notMem c hmem

theorem trim_quote (t : Text) : (quote t).trim = quote t := by
  have hfront : Text.front? (quote t) = some ('"', 1) := rfl
  have hlast : (quote t).last? = some '"' :=
    Text.last?_append (s := quoteByte :: doubled t) (e := [quoteByte]) rfl (by decide)
  have hleft : (quote t).trimLeft = quote t := by
    rw [Text.trimLeft, Text.blankWidth_of_front? hfront, if_neg (by decide), List.drop_zero]
  have hblank : (quote t).endsBlank = false := by
    rw [Text.endsBlank, hlast]
    decide
  rw [Text.trim, hleft, Text.trimRight, dif_neg (by simp [hblank])]

/-- **A written string can stand as an item of a list**, whatever it holds. -/
theorem isAtom_quote (t : Text) : IsAtom (quote t) where
  ne_nil := List.cons_ne_nil _ _
  trim_eq := trim_quote t
  paired := by
    have hcount : endsQuoted (doubled t ++ [quoteByte]) = true := by
      rw [endsQuoted_append, endsQuoted_doubled]
      rfl
    rw [quote, endsQuoted_quote_cons, hcount]
    rfl
  comma _ _ h := endsQuoted_take_quote (by decide) h
  word i _ c h := by
    obtain ⟨b, hget, hb⟩ := exists_of_hasWordAt h
    exact endsQuoted_take_quote hb hget

/-! ### Reading lists of strings -/

theorem readEach_quote (ts : List Text) :
    readEach .string (ts.map quote) = some (ts.map Scalar.string) := by
  induction ts with
  | nil => rfl
  | cons t ts ih =>
    have hread : LiteralForm.string.read (quote t) = some (.string t) := by
      rw [LiteralForm.read, readString_quote]
      rfl
    simp [readEach, hread, ih]

/-- Strings after a first one, written out, each with the junction before it. -/
def quoteOthers (others : Others) : Others :=
  others.map fun (j, t) => (j, quote t)

theorem conjunctionsOf_quoteOthers (others : Others) :
    conjunctionsOf (quoteOthers others) = conjunctionsOf others := by
  rw [conjunctionsOf, quoteOthers, List.filterMap_map]
  rfl

theorem map_snd_quoteOthers (others : Others) :
    (quoteOthers others).map Prod.snd = (others.map Prod.snd).map quote := by
  simp [quoteOthers]

/-- Several strings in one text are no string. -/
theorem readString_joined {others : Others} (hne : others ≠ []) (first : Text) :
    readString (joined (quote first) others) = none := by
  have hstarts := startsJunction_others others
  unfold joined
  cases hrest : others.flatMap fun (j, t) => j.toText ++ t with
  | nil =>
    obtain ⟨other, others, rfl⟩ := List.exists_cons_of_ne_nil hne
    have hlength := congrArg List.length hrest
    rw [List.flatMap_cons, List.append_assoc, List.length_append] at hlength
    cases hj : other.1 <;> simp [hj, Junction.toText] at hlength
  | cons b rest =>
    have hb := hstarts b (by rw [hrest]; rfl)
    refine readString_quote_append ?_ first rest
    rcases hb with rfl | rfl <;> decide

/-- The splitter takes strings apart that were put together. -/
theorem splitItems_joined_quotes (first : Text) {others : Others}
    (hone : ¬ (.and ∈ conjunctionsOf others ∧ .or ∈ conjunctionsOf others)) :
    splitItems (joined (quote first) (quoteOthers others)) =
      some ⟨(first :: others.map Prod.snd).map quote, !(conjunctionsOf others).contains .or⟩ := by
  have hothers : ∀ other ∈ quoteOthers others, IsAtom other.2 := by
    intro other hmem
    obtain ⟨other', -, rfl⟩ := List.mem_map.1 hmem
    exact isAtom_quote _
  rw [splitItems_joined (isAtom_quote first) hothers, conjunctionsOf_quoteOthers, if_neg hone,
    map_snd_quoteOthers, List.map_cons]

/-- Two strings or more read back as a list. -/
theorem readList_joined_quotes {others : Others} (hne : others ≠ []) (first : Text)
    (hone : ¬ (.and ∈ conjunctionsOf others ∧ .or ∈ conjunctionsOf others)) :
    readList .string (joined (quote first) (quoteOthers others)) =
      some ((first :: others.map Prod.snd).map Scalar.string,
        !(conjunctionsOf others).contains .or) := by
  have hmany : ¬ ((first :: others.map Prod.snd).map quote).length < 2 := by
    have hpos := List.length_pos_of_ne_nil hne
    rw [List.length_map, List.length_cons, List.length_map]
    omega
  rw [readList, splitItems_joined_quotes first hone]
  simp only [hmany, if_false, readEach_quote]
  rfl

/-- **A list of strings reads back**, whatever the strings hold: as a literal of the plural string
type, and as one of the singular string type when there is one string alone. -/
theorem read_joined_quotes {dialect : Regex.Dialect} {type : ValueType}
    (htype : (Registry.empty.registerBuiltins dialect).1.typeNamed? (Text.ofString "string") =
      some type) (first : Text) (others : Others) :
    let text := joined (quote first) (quoteOthers others)
    (¬ (.and ∈ conjunctionsOf others ∧ .or ∈ conjunctionsOf others) →
      ∃ l, read text [⟨some type, false⟩] = some l ∧ l.type = type ∧
        l.values = (first :: others.map Prod.snd).map Scalar.string ∧ l.text = text ∧
        (l.isAnd = false ↔ .or ∈ conjunctionsOf others)) ∧
    ((read text [⟨some type, true⟩]).isSome ↔ others = []) := by
  intro text
  have hform := Registry.literal_of_string htype
  have hread (ref : TypeRef) : read text [ref] = readAs ref text := by
    cases h : readAs ref text <;> simp [read, h]
  rw [hread, hread]
  unfold readAs
  simp only [hform]
  cases others with
  | nil =>
    have hstring : LiteralForm.string.read text = some (.string first) := by
      have htext : text = quote first := List.append_nil _
      rw [htext, LiteralForm.read, readString_quote]
      rfl
    simp only [hstring]
    refine ⟨fun _ => ⟨_, rfl, rfl, rfl, rfl, ?_⟩, by simp⟩
    simp [conjunctionsOf]
  | cons other others =>
    have hstring : LiteralForm.string.read text = none := by
      rw [LiteralForm.read, readString_joined (by simp [quoteOthers])]
      rfl
    simp only [hstring]
    refine ⟨fun hone => ?_, by simp⟩
    have hlist : readList .string text = some (_, _) := readList_joined_quotes (by simp) first hone
    simp only [Bool.false_eq_true, if_false, hlist]
    exact ⟨_, rfl, rfl, rfl, rfl, by simp⟩

/-- Strings that hold a quote, a conjunction, a comma and nothing. -/
def orders : Text × Others :=
  (Text.ofString "tea, \"hot\"",
    [(.comma, Text.ofString " and "),
      (.conjunction .or (Text.ofString "Or") (by decide +kernel), [])])

theorem read_joined_quotes_orders :
    ∃ type, (Registry.empty.registerBuiltins Regex.backtracking).1.typeNamed?
        (Text.ofString "string") = some type ∧
      joined (quote orders.1) (quoteOthers orders.2) =
        Text.ofString "\"tea, \"\"hot\"\"\",\" and \" Or \"\"" ∧
      (∃ l, read (joined (quote orders.1) (quoteOthers orders.2)) [⟨some type, false⟩] = some l ∧
        l.values = [.string orders.1, .string (Text.ofString " and "), .string []] ∧
        l.isAnd = false) ∧
      read (joined (quote orders.1) (quoteOthers orders.2)) [⟨some type, true⟩] = none := by
  have hsome : ((Registry.empty.registerBuiltins Regex.backtracking).1.typeNamed?
      (Text.ofString "string")).isSome := by decide +kernel
  obtain ⟨type, htype⟩ := Option.isSome_iff_exists.1 hsome
  obtain ⟨hplural, hsingular⟩ := read_joined_quotes htype orders.1 orders.2
  obtain ⟨l, hl, -, hvalues, -, hand⟩ := hplural (by decide)
  have hnone := Option.not_isSome_iff_eq_none.1 (mt hsingular.1 (by decide))
  exact ⟨type, htype, by decide +kernel, ⟨l, hl, hvalues, hand.2 (by decide)⟩, hnone⟩

end Literal

end Phrasebook
