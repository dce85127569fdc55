import Phrasebook.Book
import Phrasebook.Proofs.Match.Derivation

/-!
# What an input parses as fits its pattern

The values of a parse line up with the slots that its pattern visits, and each value fits its slot:
it is missing only where the slot may stay empty, it is a literal of one of the slot's types, or it
is the parse of an expression that gives one of them, whose own values fit in turn.

* `Book.Fits`, `Book.WellTyped` : what it means for a value to fit a slot, and for a parse to have
  values that fit.
* `Book.parseWith_eq_some` : a parse is the whole-input match of one pattern in a fresh context.
* `Book.fits_of_resolveWithin` : whatever fills a slot fits it, by induction on the nesting levels
  that are left.
* `Book.wellTyped_of_parse` : every parse of a book is well typed.
-/

namespace Phrasebook

namespace Book

open Matcher

mutual

/-- A value fits the slot it fills at a nesting level, `offered` being the text the slot took. -/
inductive Fits (book : Book) : Int → Slot → Text → Option Value → Prop where
  /-- There is no value, and the slot may stay empty. -/
  | empty {depth : Int} {slot : Slot} {offered : Text} (hnullable : slot.nullable) :
      Fits book depth slot offered none
  /-- The value is a literal of one of the slot's types, read from the whole text or, if the slot
  lists that type as plural, from its items. -/
  | literal {depth : Int} {slot : Slot} {offered : Text} {l : Literal} {ref : TypeRef}
      {form : LiteralForm} (haccept : slot.acceptance ≠ .expressions) (href : ref ∈ slot.types)
      (htype : ref.type = some l.type) (hform : l.type.literal = some form)
      (htext : l.text = offered) (hne : l.values ≠ [])
      (hvalues : ∀ value ∈ l.values, form.read offered = some value ∨
        ∃ parts, Literal.splitItems offered = some parts ∧
          ∃ item ∈ parts.items, form.read item = some value)
      (hplural : 1 < l.values.length → ref.single = false) :
      Fits book depth slot offered (some (.literal l))
  /-- The value is the parse of an expression that gives one of the slot's types, and takes up the
  whole text. -/
  | expression {depth : Int} {slot : Slot} {offered : Text} {parse : Parse} {type : ValueType}
      {ref : TypeRef} (haccept : slot.acceptance ≠ .literals)
      (hkind : parse.phrase.kind = .expression) (hreturns : parse.phrase.returns = some type)
      (href : ref ∈ slot.types) (hname : ref.name? = some type.name)
      (hstop : parse.outcome.stop = offered.length)
      (hparse : WellTyped book (depth + 1) offered parse) :
      Fits book depth slot offered (some (.expression parse))

/-- A parse of an input at a nesting level is that of one of a phrase's patterns: a derivation of
the pattern stops where the parse does, with nothing but white space left, the values are those of
the slots it visits, and each of them fits. -/
inductive WellTyped (book : Book) : Int → Text → Parse → Prop where
  | intro {depth : Int} {input : Text} {parse : Parse} {pattern : Pattern} {stop : Nat}
      {leaves : List (Leaf Value)} {marks : List Mark} (hphrase : parse.phrase ∈ book.phrases)
      (hpattern : parse.phrase.patterns[parse.index]? = some pattern)
      (hderives : Derives book.matcher input depth pattern 0 stop leaves marks)
      (hstop : parse.outcome.stop = stop) (hle : stop ≤ input.length)
      (hblank : input.skipBlank stop = input.length)
      (hvalues : parse.outcome.values = (visits leaves).map Visit.value)
      (hfits : ∀ visit ∈ visits leaves, Fits book depth visit.slot visit.offered visit.value) :
      WellTyped book depth input parse

end

variable {book : Book} {input : Text} {parse : Parse}

/-! ### Which match a parse is -/

theorem matchAll_depth (m : Matcher Value) (input : Text) (pattern : Pattern)
    (ctx : Context Value) : (m.matchAll input pattern ctx).2.depth = ctx.depth := by
  have h := m.run_depth input pattern 0 ctx
  unfold Matcher.matchAll
  generalize m.run input pattern 0 ctx = r at h ⊢
  obtain ⟨stop, after⟩ := r
  cases stop with
  | none => exact h
  | some stop =>
    simp only
    split_ifs <;> exact h

theorem tryPatterns_depth (m : Matcher Value) (input : Text) (phrase : Phrase) (index : Nat)
    (ctx : Context Value) (patterns : List Pattern) :
    (tryPatterns m input phrase index ctx patterns).2.depth = ctx.depth := by
  induction patterns generalizing index ctx with
  | nil => rfl
  | cons p rest ih =>
    have h : (m.matchAll input p ctx.reset).2.depth = ctx.depth := matchAll_depth m input p _
    unfold tryPatterns
    generalize m.matchAll input p ctx.reset = r at h ⊢
    obtain ⟨outcome, after⟩ := r
    cases outcome with
    | some outcome => exact h
    | none => exact (ih _ _).trans h

theorem tryPatterns_eq_some {m : Matcher Value} {phrase : Phrase} {index : Nat}
    {ctx : Context Value} {patterns : List Pattern}
    (h : (tryPatterns m input phrase index ctx patterns).1 = some parse) :
    ∃ i pattern, parse.phrase = phrase ∧ parse.index = index + i ∧ patterns[i]? = some pattern ∧
      (m.matchAll input pattern { depth := ctx.depth }).1 = some parse.outcome := by
  induction patterns generalizing index ctx with
  | nil => simp [tryPatterns] at h
  | cons p rest ih =>
    unfold tryPatterns at h
    have hdepth : (m.matchAll input p ctx.reset).2.depth = ctx.depth := matchAll_depth m input p _
    have hfresh : ctx.reset = { depth := ctx.depth } := rfl
    split at h
    · rename_i outcome after hm
      obtain rfl := Option.some.inj h
      refine ⟨0, p, rfl, rfl, rfl, ?_⟩
      rw [← hfresh, hm]
    · rename_i after hm
      -- a pattern that failed has kept the depth, and all else is reset before the next one
      obtain ⟨i, pattern, hphrase, hindex, hpattern, hmatch⟩ := ih h
      rw [hm] at hdepth
      replace hdepth : after.depth = ctx.depth := hdepth
      rw [hdepth] at hmatch
      exact ⟨i + 1, pattern, hphrase, by omega, hpattern, hmatch⟩

theorem tryPhrases_eq_some {m : Matcher Value} {ctx : Context Value} {phrases : List Phrase}
    (h : tryPhrases m input ctx phrases = some parse) :
    parse.phrase ∈ phrases ∧ ∃ pattern, parse.phrase.patterns[parse.index]? = some pattern ∧
      (m.matchAll input pattern { depth := ctx.depth }).1 = some parse.outcome := by
  induction phrases generalizing ctx with
  | nil => simp [tryPhrases] at h
  | cons phrase rest ih =>
    unfold tryPhrases at h
    have hdepth := tryPatterns_depth m input phrase 0 ctx phrase.patterns
    split at h
    · rename_i p after ht
      obtain rfl := Option.some.inj h
      obtain ⟨i, pattern, hphrase, hindex, hpattern, hmatch⟩ :=
        tryPatterns_eq_some (congrArg Prod.fst ht)
      rw [Nat.zero_add] at hindex
      exact ⟨hphrase ▸ List.mem_cons_self, pattern, by rw [hphrase, hindex]; exact hpattern, hmatch⟩
    · rename_i after ht
      rw [ht] at hdepth
      replace hdepth : after.depth = ctx.depth := hdepth
      obtain ⟨hmem, pattern, hpattern, hmatch⟩ := ih h
      rw [hdepth] at hmatch
      exact ⟨List.mem_cons_of_mem _ hmem, pattern, hpattern, hmatch⟩

/-- **A parse is a match of one pattern in a fresh context**, whatever was tried before it. -/
theorem parseWith_eq_some {resolve : Resolver Value} {wanted : Phrase → Bool} {depth : Int}
    (h : book.parseWith resolve wanted depth input = some parse) :
    parse.phrase ∈ book.phrases ∧ wanted parse.phrase ∧
      ∃ pattern, parse.phrase.patterns[parse.index]? = some pattern ∧
        (Matcher.matchAll ⟨some resolve, book.caseSensitive⟩ input pattern { depth := depth }).1 =
          some parse.outcome := by
  obtain ⟨hmem, hpattern⟩ := tryPhrases_eq_some h
  obtain ⟨hphrase, hwanted⟩ := List.mem_filter.1 hmem
  exact ⟨hphrase, hwanted, hpattern⟩

theorem matchAll_eq_some {m : Matcher Value} {pattern : Pattern} {depth : Int}
    {outcome : Outcome Value}
    (h : (m.matchAll input pattern { depth := depth }).1 = some outcome) :
    ∃ (stop : Nat) (leaves : List (Leaf Value)) (marks : List Mark), outcome.stop = stop ∧
      Derives m input depth pattern 0 stop leaves marks ∧
      input.skipBlank stop = input.length ∧ outcome.values = (visits leaves).map Visit.value := by
  unfold Matcher.matchAll at h
  split at h
  · rename_i stop after hrun
    split_ifs at h with hblank
    obtain rfl := Option.some.inj h
    obtain ⟨leaves, marks, hd, ha⟩ := exists_derives_of_run hrun
    exact ⟨stop, leaves, marks, rfl, hd, hblank, by simpa [Context.outcome] using ha.values⟩
  · simp at h

/-! ### What fills a slot fits it -/

theorem Literal.readEach_eq_some {form : LiteralForm} {items : List Text} {values : List Scalar}
    (h : Literal.readEach form items = some values) :
    values.length = items.length ∧
      ∀ value ∈ values, ∃ item ∈ items, form.read item = some value := by
  induction items generalizing values with
  | nil => simp_all [Literal.readEach]
  | cons item rest ih =>
    unfold Literal.readEach at h
    split at h
    · simp at h
    · rename_i value hv
      obtain ⟨more, hmore, rfl⟩ := Option.map_eq_some_iff.1 h
      obtain ⟨hlen, hmem⟩ := ih hmore
      refine ⟨by simp [hlen], fun v hvm => ?_⟩
      rcases List.mem_cons.1 hvm with rfl | hvm
      · exact ⟨item, List.mem_cons_self, hv⟩
      · obtain ⟨i, hi, hread⟩ := hmem v hvm
        exact ⟨i, List.mem_cons_of_mem _ hi, hread⟩

/-- A literal that is read of the types of a slot fits the slot. -/
theorem fits_of_read {depth : Int} {slot : Slot} {text : Text} {l : Literal}
    (haccept : slot.acceptance ≠ .expressions) (h : Literal.read text slot.types = some l) :
    Fits book depth slot text (some (.literal l)) := by
  obtain ⟨ref, href, hread⟩ := List.exists_of_findSome?_eq_some h
  unfold Literal.readAs at hread
  cases htype : ref.type with
  | none => simp [htype] at hread
  | some type =>
    cases hform : type.literal with
    | none => simp [htype, hform] at hread
    | some form =>
      simp only [htype, hform] at hread
      split at hread
      · rename_i value hv
        -- one value for the whole text
        obtain rfl := Option.some.inj hread
        exact .literal haccept href htype hform rfl (by simp) (by simp [hv]) (by simp)
      · -- a value for each item, which only a plural type allows
        split_ifs at hread with hsingle
        obtain ⟨⟨values, isAnd⟩, hlist, rfl⟩ := Option.map_eq_some_iff.1 hread
        unfold Literal.readList at hlist
        split at hlist
        · simp at hlist
        · rename_i parts hparts
          split_ifs at hlist with hlen
          obtain ⟨vs, hvs, hpair⟩ := Option.map_eq_some_iff.1 hlist
          obtain ⟨rfl, rfl⟩ := Prod.mk.inj hpair
          obtain ⟨hl, hmem⟩ := Literal.readEach_eq_some hvs
          refine .literal haccept href htype hform rfl ?_ ?_ ?_
          · rintro rfl
            simp at hl
            omega
          · exact fun v hv => .inr ⟨parts, hparts, hmem v hv⟩
          · exact fun _ => by simpa using hsingle

/-- A parse is well typed when the resolver it was made with is the book's at its nesting level, and
gives only values that fit. -/
theorem wellTyped_of_parseWith {resolve : Resolver Value} {wanted : Phrase → Bool} {depth : Int}
    (hsame : ∀ text slot,
      resolve text (.ofSlot slot depth) = book.resolve text (.ofSlot slot depth))
    (hfits : ∀ slot text r, Text.endsBlank text = false →
      resolve text (.ofSlot slot depth) = some r → Fits book depth slot text (some r.value))
    (h : book.parseWith resolve wanted depth input = some parse) :
    WellTyped book depth input parse := by
  obtain ⟨hphrase, -, pattern, hpattern, hmatch⟩ := parseWith_eq_some h
  obtain ⟨stop, leaves, marks, hstop, hd, hblank, hvalues⟩ := matchAll_eq_some hmatch
  -- the two resolvers agree on all that a match at this level asks for
  have hd' : Derives book.matcher input depth pattern 0 stop leaves marks := by
    have hcase : book.caseSensitive = book.matcher.caseSensitive := rfl
    refine hd.of_resolver hcase fun resolve' hr => ⟨book.resolve, rfl, ?_⟩
    obtain rfl := Option.some.inj hr
    exact hsame
  refine .intro hphrase hpattern hd' hstop (Text.le_length_of_skipBlank hblank) hblank hvalues ?_
  intro visit hv
  rcases hd.justified visit hv with ⟨hn, hnone⟩ | ⟨resolve', r, hr, hends, hres, hsome⟩
  · rw [hnone]
    exact .empty hn
  · rw [hsome]
    obtain rfl := Option.some.inj hr
    exact hfits _ _ _ hends hres

theorem fits_of_resolveLiteral {depth : Int} {slot : Slot} {text : Text} {r : Resolution Value}
    (h : resolveLiteral text (.ofSlot slot depth) = some r) :
    Fits book depth slot text (some r.value) := by
  unfold resolveLiteral at h
  split_ifs at h with haccept
  obtain ⟨l, hl, rfl⟩ := Option.map_eq_some_iff.1 h
  exact fits_of_read haccept hl

theorem exists_ref_of_accepts {request : Request} {name : Text}
    (h : (request.accepts? name).isSome) : ∃ ref ∈ request.types, ref.name? = some name := by
  simp only [Request.accepts?, Option.isSome_map] at h
  obtain ⟨ref, hf⟩ := Option.isSome_iff_exists.1 h
  exact ⟨ref, List.mem_of_find?_eq_some hf, by simpa using List.find?_some hf⟩

/-- A well-typed parse of a phrase that answers a slot's request fits the slot. -/
theorem fits_of_answers {depth : Int} {slot : Slot} {text : Text}
    (haccept : slot.acceptance ≠ .literals) (hends : Text.endsBlank text = false)
    (hanswers : answers (.ofSlot slot depth) parse.phrase)
    (hparse : WellTyped book (depth + 1) text parse) :
    Fits book depth slot text (some (.expression parse)) := by
  simp only [answers, Bool.and_eq_true, beq_iff_eq] at hanswers
  obtain ⟨hkind, hreturns⟩ := hanswers
  cases htype : parse.phrase.returns with
  | none => simp [htype] at hreturns
  | some type =>
    simp only [htype] at hreturns
    obtain ⟨ref, href, hname⟩ := exists_ref_of_accepts hreturns
    -- white space is all that a parse leaves, and the text does not end in any
    have hstop : parse.outcome.stop = text.length := by
      cases hparse with
      | intro _ _ _ hstop _ hblank _ _ =>
        rw [hstop, Text.eq_length_of_skipBlank hblank hends]
    exact .expression haccept hkind htype href hname hstop hparse

/-- **Whatever fills a slot fits it**, by induction on the nesting levels that are left. -/
theorem fits_of_resolveWithin {levels : Nat} {depth : Int} {slot : Slot} {text : Text}
    {r : Resolution Value} (hlevels : levels = (book.maxDepth - depth).toNat)
    (hends : Text.endsBlank text = false)
    (h : book.resolveWithin levels text (.ofSlot slot depth) = some r) :
    Fits book depth slot text (some r.value) := by
  induction levels generalizing depth slot text r with
  | zero =>
    unfold resolveWithin at h
    split at h
    · rename_i resolution hl
      exact fits_of_resolveLiteral (h ▸ hl)
    · simp at h
  | succ levels ih =>
    unfold resolveWithin at h
    split at h
    · rename_i resolution hl
      exact fits_of_resolveLiteral (h ▸ hl)
    · split_ifs at h with hrefused
      obtain ⟨parse, hp, rfl⟩ := Option.map_eq_some_iff.1 h
      -- the slots of the inner parse are filled one level further in, with one level less left
      have hnext : levels = (book.maxDepth - (depth + 1)).toNat := by omega
      refine fits_of_answers (fun ha => hrefused (.inl ha)) hends (parseWith_eq_some hp).2.1 ?_
      refine wellTyped_of_parseWith (fun t s => ?_) (fun s t r' ht hr => ih hnext ht hr) hp
      rw [hnext]
      rfl

/-- **Every parse of a book is well typed**, at every level of nesting. -/
theorem wellTyped_of_parse (h : book.parse input = some parse) : WellTyped book 0 input parse := by
  refine wellTyped_of_parseWith (fun _ _ => rfl) (fun slot text r hends hr => ?_) h
  exact fits_of_resolveWithin rfl hends hr

/-- A book with an expression that fills slots, its own included, and a slot that may stay empty. -/
def loudConfig : Config where
  phrases :=
    [{ name := Text.ofString "say"
       kind := Text.ofString "effect"
       patterns := [Text.ofString "say %strings% [to %-string%]"] },
     { name := Text.ofString "loud"
       kind := Text.ofString "expression"
       returns := Text.ofString "string"
       patterns := [Text.ofString "loud %string%"] }]

/-- An expression inside an expression fills a plural slot. -/
theorem wellTyped_of_parse_loud :
    ∃ book parse, build? Regex.backtracking (some loudConfig) = .ok book ∧
      book.parse (Text.ofString "say loud loud \"a\" to \"b\"") = some parse ∧
      WellTyped book 0 (Text.ofString "say loud loud \"a\" to \"b\"") parse := by
  have h : ((build? Regex.backtracking (some loudConfig)).toOption.bind fun book =>
      book.parse (Text.ofString "say loud loud \"a\" to \"b\"")).isSome := by decide +kernel
  obtain ⟨parse, h⟩ := Option.isSome_iff_exists.1 h
  obtain ⟨book, hbook, hp⟩ := Option.bind_eq_some_iff.1 h
  cases hb : build? Regex.backtracking (some loudConfig) with
  | error reason => simp [hb, Except.toOption] at hbook
  | ok book' =>
    obtain rfl : book' = book := by simpa [hb, Except.toOption] using hbook
    exact ⟨book', parse, rfl, hp, wellTyped_of_parse hp⟩

end Book

end Phrasebook
