import Phrasebook.Proofs.Book.Soundness
import Phrasebook.Proofs.Match.Offers

/-!
# Nesting is bounded, so parsing ends

A text that is offered to a slot may be parsed as an expression, which may have a slot at its very
beginning that is offered the same text again.  The text does not get shorter; what ends the
recursion is the nesting level, which no answer may take above the book's depth.

`Book.resolve` counts the levels that are left.  Here the recursion is also told without a count, as
the relation `Book.Answered`: a text is answered once all the texts are that are offered while it is
looked at.  A computation that never ended would have no derivation.

* `Book.Enquiry` : a computation that asks a resolver, with the offers it makes.
* `Book.finishes_iff` : an enquiry finishes, and only with the result it has when the book's own
  resolver is asked.
* `Book.depth_of_asked` : all requests made, however deep, are at a level within the book's depth.
* `Book.height_le_of_resolveWithin` : a value is no higher than the levels that were left for it.
* `Book.nestsWithin_of_build` : all this for the books that are built, with their depth.
-/

namespace Phrasebook

/-! ### How high values are -/

mutual

/-- How many expressions are nested in a value, itself included. -/
def Value.height : Value → Nat
  | .scalar _ => 0
  | .literal _ => 0
  | .expression p => p.height

/-- How many expressions are nested in a parse, itself included. -/
def Parse.height : Parse → Nat
  | ⟨_, _, outcome⟩ => outcome.height + 1

/-- The height of the highest value of an outcome. -/
def Outcome.height : Outcome Value → Nat
  | ⟨_, _, values, _⟩ => slotsHeight values

/-- The height of the highest value of these slots. -/
def slotsHeight : List (Option Value) → Nat
  | [] => 0
  | none :: rest => slotsHeight rest
  | some value :: rest => max value.height (slotsHeight rest)

end

theorem slotsHeight_le {values : List (Option Value)} {bound : Nat}
    (h : ∀ value, some value ∈ values → value.height ≤ bound) : slotsHeight values ≤ bound := by
  induction values with
  | nil => exact Nat.zero_le bound
  | cons slot rest ih =>
    have hrest : slotsHeight rest ≤ bound := ih fun value hv => h value (List.mem_cons_of_mem _ hv)
    cases slot with
    | none => exact hrest
    | some value => exact Nat.max_le.2 ⟨h value List.mem_cons_self, hrest⟩

theorem Parse.height_eq (parse : Parse) :
    parse.height = slotsHeight parse.outcome.values + 1 := by
  obtain ⟨phrase, index, outcome⟩ := parse
  obtain ⟨stop, mark, values, captures⟩ := outcome
  rfl

theorem Parse.height_le {parse : Parse} {bound : Nat}
    (h : ∀ value, some value ∈ parse.outcome.values → value.height ≤ bound) :
    parse.height ≤ bound + 1 := by
  rw [parse.height_eq]
  exact Nat.succ_le_succ (slotsHeight_le h)

namespace Book

open Matcher

/-! ### Computations that ask -/

/-- A computation that asks a resolver: the offers it makes, in order, and its result. -/
abbrev Enquiry (α : Type) := Resolver Value → List Offer × α

/-- The answers to the offers that are made determine what an enquiry offers and its result. -/
def Enquiry.Determined {α : Type} (enquiry : Enquiry α) : Prop :=
  ∀ resolve resolve' : Resolver Value,
    Agree resolve resolve' (enquiry resolve).1 → enquiry resolve' = enquiry resolve

/-- The patterns of phrases, with the phrase and the place of each. -/
def candidates (phrases : List Phrase) : List (Phrase × Nat × Pattern) :=
  phrases.flatMap fun phrase => phrase.patterns.zipIdx.map fun (p, index) => (phrase, index, p)

/-- Tries patterns until one matches the whole input.  Gives all offers made on the way. -/
def tryEach (m : Matcher Value) (input : Text) (depth : Int) :
    List (Phrase × Nat × Pattern) → List Offer × Option Parse
  | [] => ([], none)
  | (phrase, index, p) :: rest =>
    match m.matchAll input p { depth := depth } with
    | (some outcome, ctx) => (ctx.offers, some ⟨phrase, index, outcome⟩)
    | (none, ctx) =>
      let more := tryEach m input depth rest
      (ctx.offers ++ more.1, more.2)

/-- Parsing an input at a nesting level as one of the phrases that are wanted. -/
def parsing (book : Book) (wanted : Phrase → Bool) (depth : Int) (input : Text) :
    Enquiry (Option Parse) := fun resolve =>
  tryEach ⟨some resolve, book.caseSensitive⟩ input depth (candidates (book.phrases.filter wanted))

/-- Matching a pattern at an offset. -/
def matching (book : Book) (pattern : Pattern) (input : Text) (offset : Int) :
    Enquiry (Option (Outcome Value)) := fun resolve =>
  let r := Matcher.matchAt ⟨some resolve, book.caseSensitive⟩ input pattern offset {}
  (r.2.offers, r.1.map fun stop => r.2.outcome stop)

/-- Resolving a text.  Only the slots of an expression make offers, one level further in, and there
is no count of the levels that are left. -/
def resolving (book : Book) (text : Text) (request : Request) :
    Enquiry (Option (Resolution Value)) := fun resolve =>
  match resolveLiteral text request with
  | some resolution => ([], some resolution)
  | none =>
    if request.acceptance = .literals ∨ book.maxDepth ≤ request.depth then ([], none)
    else
      let r := book.parsing (answers request) (request.depth + 1) text resolve
      (r.1, r.2.map fun parse => ⟨text.length, .expression parse⟩)

/-! ### The results are those of the book -/

section Results

variable {m : Matcher Value} {input : Text}

theorem candidates_cons (phrase : Phrase) (rest : List Phrase) :
    candidates (phrase :: rest) =
      (phrase.patterns.zipIdx.map fun (p, index) => (phrase, index, p)) ++ candidates rest :=
  List.flatMap_cons

theorem tryEach_append (depth : Int) (first second : List (Phrase × Nat × Pattern)) :
    (tryEach m input depth (first ++ second)).2 =
      ((tryEach m input depth first).2 <|> (tryEach m input depth second).2) := by
  induction first with
  | nil => rfl
  | cons candidate rest ih =>
    obtain ⟨phrase, index, p⟩ := candidate
    simp only [List.cons_append, tryEach]
    split
    · rfl
    · exact ih

theorem tryPatterns_eq (phrase : Phrase) (index : Nat) (ctx : Context Value)
    (patterns : List Pattern) :
    (tryPatterns m input phrase index ctx patterns).1 =
      (tryEach m input ctx.depth
        ((patterns.zipIdx index).map fun (p, index) => (phrase, index, p))).2 := by
  induction patterns generalizing index ctx with
  | nil => rfl
  | cons p rest ih =>
    have hdepth : (m.matchAll input p { depth := ctx.depth }).2.depth = ctx.depth :=
      matchAll_depth m input p _
    simp only [tryPatterns, tryEach, List.zipIdx_cons, List.map_cons, Context.reset]
    generalize m.matchAll input p { depth := ctx.depth } = r at hdepth ⊢
    obtain ⟨outcome, after⟩ := r
    cases outcome with
    | some outcome => rfl
    | none =>
      -- a context is reset before each pattern, but for its depth
      replace hdepth : after.depth = ctx.depth := hdepth
      simpa only [hdepth] using ih (index + 1) after

theorem tryPhrases_eq (ctx : Context Value) (phrases : List Phrase) :
    tryPhrases m input ctx phrases = (tryEach m input ctx.depth (candidates phrases)).2 := by
  induction phrases generalizing ctx with
  | nil => rfl
  | cons phrase rest ih =>
    have hdepth := tryPatterns_depth m input phrase 0 ctx phrase.patterns
    unfold tryPhrases
    rw [candidates_cons, tryEach_append, ← tryPatterns_eq]
    generalize tryPatterns m input phrase 0 ctx phrase.patterns = r at hdepth ⊢
    obtain ⟨parse, after⟩ := r
    cases parse with
    | some parse => rfl
    | none =>
      replace hdepth : after.depth = ctx.depth := hdepth
      exact hdepth ▸ ih after

end Results

variable {book : Book}

theorem parsing_snd (wanted : Phrase → Bool) (depth : Int) (input : Text)
    (resolve : Resolver Value) :
    (book.parsing wanted depth input resolve).2 = book.parseWith resolve wanted depth input :=
  (tryPhrases_eq { depth := depth } (book.phrases.filter wanted)).symm

theorem matching_snd (pattern : Pattern) (input : Text) (offset : Int) :
    (book.matching pattern input offset book.resolve).2 =
      (book.matchAt pattern input offset).1 := by
  unfold matching Book.matchAt matcher
  generalize Matcher.matchAt _ input pattern offset {} = r
  obtain ⟨stop, ctx⟩ := r
  cases stop <;> rfl

/-! ### The level of offers -/

theorem tryEach_offers_depth {m : Matcher Value} {input : Text} {depth : Int}
    {candidates : List (Phrase × Nat × Pattern)} {offer : Offer}
    (h : offer ∈ (tryEach m input depth candidates).1) : offer.request.depth = depth := by
  induction candidates with
  | nil => exact absurd h List.not_mem_nil
  | cons candidate rest ih =>
    obtain ⟨phrase, index, p⟩ := candidate
    have hmatch (hoffer : offer ∈ (m.matchAll input p { depth := depth }).2.offers) :
        offer.request.depth = depth := matchAll_offers_depth m input hoffer
    unfold tryEach at h
    generalize m.matchAll input p { depth := depth } = r at h hmatch
    obtain ⟨outcome, after⟩ := r
    cases outcome with
    | some outcome => exact hmatch h
    | none => exact (List.mem_append.1 h).elim hmatch ih

theorem parsing_offers_depth {wanted : Phrase → Bool} {depth : Int} {input : Text}
    {resolve : Resolver Value} {offer : Offer}
    (h : offer ∈ (book.parsing wanted depth input resolve).1) : offer.request.depth = depth :=
  tryEach_offers_depth h

/-- **A text makes offers only below the book's depth, and one level further in.** -/
theorem resolving_offers_depth {text : Text} {request : Request} {resolve : Resolver Value}
    {offer : Offer} (h : offer ∈ (book.resolving text request resolve).1) :
    request.depth < book.maxDepth ∧ offer.request.depth = request.depth + 1 := by
  unfold resolving at h
  split at h
  · exact absurd h List.not_mem_nil
  · split_ifs at h with hrefused
    · exact absurd h List.not_mem_nil
    · have hbelow : ¬ book.maxDepth ≤ request.depth := fun hle => hrefused (.inr hle)
      exact ⟨by omega, parsing_offers_depth h⟩

/-! ### Enquiries are determined -/

theorem parsing_determined (wanted : Phrase → Bool) (depth : Int) (input : Text) :
    (book.parsing wanted depth input).Determined := by
  intro resolve resolve' h
  unfold parsing at h ⊢
  generalize candidates (book.phrases.filter wanted) = candidates at h ⊢
  induction candidates with
  | nil => rfl
  | cons candidate rest ih =>
    obtain ⟨phrase, index, p⟩ := candidate
    have hsame (hagree : Agree resolve resolve' (Matcher.matchAll ⟨some resolve, book.caseSensitive⟩
        input p { depth := depth }).2.offers) := matchAll_eq_of_agree hagree
    unfold tryEach at h ⊢
    generalize Matcher.matchAll ⟨some resolve, _⟩ input p { depth := depth } = r at h hsame ⊢
    obtain ⟨outcome, after⟩ := r
    cases outcome with
    | some outcome => rw [hsame h]
    | none =>
      rw [hsame (h.subset (List.subset_append_left _ _)),
        ih (h.subset (List.subset_append_right _ _))]

theorem matching_determined (pattern : Pattern) (input : Text) (offset : Int) :
    (book.matching pattern input offset).Determined := by
  intro resolve resolve' h
  unfold matching
  rw [matchAt_eq_of_agree h]

theorem resolving_determined (text : Text) (request : Request) :
    (book.resolving text request).Determined := by
  intro resolve resolve' h
  unfold resolving at h ⊢
  split at h
  · rfl
  · split_ifs at h ⊢
    · rfl
    · rw [parsing_determined _ _ _ resolve resolve' h]

/-- **The count of levels is never used up**: with the book's own resolver to ask, resolving a text
gives what the book gives. -/
theorem resolving_snd (text : Text) (request : Request) :
    (book.resolving text request book.resolve).2 = book.resolve text request := by
  have hcount : book.resolve text request =
      book.resolveWithin (book.maxDepth - request.depth).toNat text request := rfl
  rw [hcount]
  unfold resolving resolveWithin
  cases resolveLiteral text request with
  | some resolution => rfl
  | none =>
    simp only
    split_ifs with hrefused
    · rfl
    · have hbelow : ¬ book.maxDepth ≤ request.depth := fun hle => hrefused (.inr hle)
      obtain ⟨levels, hlevels⟩ : ∃ levels, (book.maxDepth - request.depth).toNat = levels + 1 :=
        ⟨(book.maxDepth - request.depth).toNat - 1, by omega⟩
      simp only [hlevels]
      rw [← parsing_snd]
      -- one level further in, one level less is left, which is the book's own count there
      have hagree : Agree book.resolve (book.resolveWithin levels)
          (book.parsing (answers request) (request.depth + 1) text book.resolve).1 := by
        intro offer hoffer
        have hdepth := parsing_offers_depth hoffer
        have hleft : (book.maxDepth - offer.request.depth).toNat = levels := by omega
        unfold Book.resolve
        rw [hleft]
      rw [parsing_determined _ _ _ _ _ hagree]

/-! ### Enquiries finish -/

/-- The recursion of `resolve` without a count of levels: a text is answered when all the texts are
that are offered while it is resolved. -/
inductive Answered (book : Book) : Text → Request → Option (Resolution Value) → Prop where
  | intro {text : Text} {request : Request} (resolve : Resolver Value)
      (hoffers : ∀ offer ∈ (book.resolving text request resolve).1,
        Answered book offer.text offer.request (resolve offer.text offer.request)) :
      Answered book text request (book.resolving text request resolve).2

/-- An enquiry finishes with a result: all its offers are answered. -/
def Finishes (book : Book) {α : Type} (enquiry : Enquiry α) (result : α) : Prop :=
  ∃ resolve : Resolver Value,
    (∀ offer ∈ (enquiry resolve).1,
      Answered book offer.text offer.request (resolve offer.text offer.request)) ∧
    (enquiry resolve).2 = result

/-- Answers are the book's, by induction on how they came about. -/
theorem Answered.eq_resolve {text : Text} {request : Request}
    {answer : Option (Resolution Value)} (h : Answered book text request answer) :
    answer = book.resolve text request := by
  induction h with
  | @intro text request resolve hoffers ih =>
    rw [← resolving_snd, resolving_determined text request resolve book.resolve ih]

/-- **Every text is answered**, by induction on the levels up to the book's depth. -/
theorem answered_resolve (text : Text) (request : Request) :
    Answered book text request (book.resolve text request) := by
  induction hlevels : (book.maxDepth - request.depth).toNat using Nat.strongRecOn
    generalizing text request with
  | _ levels ih =>
    rw [← resolving_snd]
    refine .intro book.resolve fun offer hoffer => ?_
    have hdepth := resolving_offers_depth hoffer
    have hfewer : (book.maxDepth - offer.request.depth).toNat < levels := by omega
    exact ih _ hfewer offer.text offer.request rfl

/-- **An enquiry finishes with the result of asking the book, and with no other.** -/
theorem finishes_iff {α : Type} {enquiry : Enquiry α} (h : enquiry.Determined) {result : α} :
    book.Finishes enquiry result ↔ result = (enquiry book.resolve).2 := by
  constructor
  · rintro ⟨resolve, hoffers, rfl⟩
    have hagree : Agree resolve book.resolve (enquiry resolve).1 :=
      fun offer hoffer => (hoffers offer hoffer).eq_resolve
    rw [h resolve book.resolve hagree]
  · rintro rfl
    exact ⟨book.resolve, fun offer _ => answered_resolve offer.text offer.request, rfl⟩

/-! ### The level of requests -/

/-- The offers that are made in an enquiry that makes these directly, at any level of nesting. -/
inductive Asked (book : Book) (direct : List Offer) : Offer → Prop where
  /-- The offer is made directly. -/
  | direct {offer : Offer} (h : offer ∈ direct) : Asked book direct offer
  /-- The offer is made while the text of another is resolved. -/
  | nested {outer offer : Offer} (houter : Asked book direct outer)
      (h : offer ∈ (book.resolving outer.text outer.request book.resolve).1) :
      Asked book direct offer

/-- **Nesting does not go beyond the book's depth**, by induction on how an offer comes about. -/
theorem depth_of_asked {direct : List Offer} {level : Int} (hlevel : level ≤ book.maxDepth)
    (hdirect : ∀ offer ∈ direct, offer.request.depth = level) {offer : Offer}
    (h : Asked book direct offer) :
    level ≤ offer.request.depth ∧ offer.request.depth ≤ book.maxDepth := by
  induction h with
  | direct hoffer =>
    have hdepth := hdirect _ hoffer
    omega
  | nested houter hoffer ih =>
    have hdepth := resolving_offers_depth hoffer
    omega

/-! ### The height of values -/

/-- The values of a parse come from the resolver it was made with. -/
theorem exists_resolve_of_mem_values {resolve : Resolver Value} {wanted : Phrase → Bool}
    {depth : Int} {input : Text} {parse : Parse} {value : Value}
    (h : book.parseWith resolve wanted depth input = some parse)
    (hvalue : some value ∈ parse.outcome.values) :
    ∃ slot text r, resolve text (.ofSlot slot depth) = some r ∧ value = r.value := by
  obtain ⟨-, -, pattern, -, hmatch⟩ := parseWith_eq_some h
  obtain ⟨stop, leaves, marks, -, hd, -, hvalues⟩ := matchAll_eq_some hmatch
  rw [hvalues] at hvalue
  obtain ⟨visit, hvisit, hsome⟩ := List.mem_map.1 hvalue
  rcases hd.justified visit hvisit with ⟨-, hnone⟩ | ⟨resolve', r, hr, -, hres, hfilled⟩
  · rw [hnone] at hsome
    exact absurd hsome nofun
  · obtain rfl := Option.some.inj hr
    exact ⟨visit.slot, _, r, hres, Option.some.inj (hsome.symm.trans hfilled)⟩

theorem exists_literal_of_resolveLiteral {text : Text} {request : Request}
    {r : Resolution Value} (h : resolveLiteral text request = some r) :
    ∃ l, r.value = .literal l := by
  unfold resolveLiteral at h
  split_ifs at h
  obtain ⟨l, -, rfl⟩ := Option.map_eq_some_iff.1 h
  exact ⟨l, rfl⟩

/-- What is no literal is an expression, found below the book's depth among the levels left. -/
theorem resolveWithin_eq_some {levels : Nat} {text : Text} {request : Request}
    {r : Resolution Value} (h : book.resolveWithin levels text request = some r) :
    (∃ l, r.value = .literal l) ∨ request.depth < book.maxDepth ∧ ∃ fewer parse,
      levels = fewer + 1 ∧ r.value = .expression parse ∧
      book.parseWith (book.resolveWithin fewer) (answers request) (request.depth + 1) text =
        some parse := by
  unfold resolveWithin at h
  split at h
  · rename_i resolution hliteral
    exact .inl (exists_literal_of_resolveLiteral (h ▸ hliteral))
  · split_ifs at h with hrefused
    have hbelow : ¬ book.maxDepth ≤ request.depth := fun hle => hrefused (.inr hle)
    cases levels with
    | zero => exact absurd h nofun
    | succ fewer =>
      obtain ⟨parse, hparse, rfl⟩ := Option.map_eq_some_iff.1 h
      exact .inr ⟨by omega, fewer, parse, rfl, rfl, hparse⟩

/-- **A value is no higher than the levels that were left for it.** -/
theorem height_le_of_resolveWithin {levels : Nat} {text : Text} {request : Request}
    {r : Resolution Value} (h : book.resolveWithin levels text request = some r) :
    r.value.height ≤ levels := by
  induction levels using Nat.strongRecOn generalizing text request r with
  | _ levels ih =>
    rcases resolveWithin_eq_some h with ⟨l, hl⟩ | ⟨-, fewer, parse, rfl, hvalue, hparse⟩
    · rw [hl]
      exact Nat.zero_le _
    · rw [hvalue]
      refine Parse.height_le fun value hmem => ?_
      obtain ⟨slot, inner, r', hr', rfl⟩ := exists_resolve_of_mem_values hparse hmem
      exact ih fewer (Nat.lt_succ_self fewer) hr'

/-- What the book resolves a text to is a literal, or an expression that fits into the levels that
the request leaves. -/
theorem resolve_eq_some {text : Text} {request : Request} {r : Resolution Value}
    (h : book.resolve text request = some r) :
    (∃ l, r.value = .literal l) ∨ ∃ parse, r.value = .expression parse ∧
      request.depth < book.maxDepth ∧ (parse.height : Int) ≤ book.maxDepth - request.depth := by
  have hheight := height_le_of_resolveWithin h
  rcases resolveWithin_eq_some h with hliteral | ⟨hbelow, _, parse, -, hvalue, -⟩
  · exact .inl hliteral
  · rw [hvalue] at hheight
    replace hheight : parse.height ≤ (book.maxDepth - request.depth).toNat := hheight
    exact .inr ⟨parse, hvalue, hbelow, by omega⟩

/-! ### Books that are built -/

theorem maxDepth_of_build {dialect : Regex.Dialect} {config : Config}
    (h : build? dialect (some config) = .ok book) : book.maxDepth = depthOf config := by
  simp only [build?, build] at h
  repeat' split at h
  -- all but the last step report a fault
  all_goals cases h
  rfl

/-- Nesting is bounded in a book by a limit: whatever is asked of the book finishes, and neither
requests nor values go beyond the limit. -/
structure NestsWithin (book : Book) (limit : Int) : Prop where
  /-- Parsing finishes on every input, with what the book parses it as. -/
  parse_finishes : ∀ input result,
    book.Finishes (book.parsing (fun _ => true) 0 input) result ↔ result = book.parse input
  /-- Matching finishes for every pattern, input and offset, with the book's outcome. -/
  match_finishes : ∀ pattern input offset result,
    book.Finishes (book.matching pattern input offset) result ↔
      result = (book.matchAt pattern input offset).1
  /-- Resolving finishes for every text and request, with the book's answer. -/
  resolve_finishes : ∀ text request answer,
    book.Finishes (book.resolving text request) answer ↔ answer = book.resolve text request
  /-- All requests that are made while an input is parsed are at a level within the limit. -/
  parse_requests : ∀ input offer,
    Asked book (book.parsing (fun _ => true) 0 input book.resolve).1 offer →
      0 ≤ offer.request.depth ∧ offer.request.depth ≤ limit
  /-- All requests that are made while a pattern is matched are at a level within the limit. -/
  match_requests : ∀ pattern input offset offer,
    Asked book (book.matching pattern input offset book.resolve).1 offer →
      0 ≤ offer.request.depth ∧ offer.request.depth ≤ limit
  /-- An expression that fills a slot of a parse is no higher than the limit. -/
  parse_height : ∀ input parse, book.parse input = some parse →
    ∀ inner, some (.expression inner) ∈ parse.outcome.values → (inner.height : Int) ≤ limit
  /-- A text is resolved to a literal, or below the limit to an expression that is no higher than
  the levels left. -/
  resolve_height : ∀ text request r, book.resolve text request = some r →
    (∃ l, r.value = .literal l) ∨ ∃ parse, r.value = .expression parse ∧
      request.depth < limit ∧ (parse.height : Int) ≤ limit - request.depth

/-- **Nesting is bounded and parsing ends** in every book that is built, however its expressions
refer to their own types. -/
theorem nestsWithin_of_build {dialect : Regex.Dialect} {config : Config} {limit : Int}
    (hbuild : build? dialect (some config) = .ok book)
    (hlimit : limit = if 0 < config.maxDepth then config.maxDepth else 8) :
    NestsWithin book limit := by
  have hdepth : limit = book.maxDepth := by
    rw [maxDepth_of_build hbuild, hlimit]
    unfold depthOf Config.usualDepth
    split_ifs <;> omega
  have hnonneg : 0 ≤ book.maxDepth := by
    rw [← hdepth, hlimit]
    split_ifs <;> omega
  rw [hdepth]
  constructor
  case parse_finishes =>
    intro input result
    rw [finishes_iff (parsing_determined _ _ _), parsing_snd]
    rfl
  case match_finishes =>
    intro pattern input offset result
    rw [finishes_iff (matching_determined _ _ _), matching_snd]
  case resolve_finishes =>
    intro text request answer
    rw [finishes_iff (resolving_determined _ _), resolving_snd]
  case parse_requests =>
    intro input offer h
    exact depth_of_asked hnonneg (fun _ => parsing_offers_depth) h
  case match_requests =>
    intro pattern input offset offer h
    exact depth_of_asked hnonneg (fun _ => matchAt_offers_depth _ _) h
  case parse_height =>
    intro input parse hparse inner hinner
    obtain ⟨slot, text, r, hr, hvalue⟩ := exists_resolve_of_mem_values hparse hinner
    rcases resolve_eq_some hr with ⟨l, hl⟩ | ⟨parse', hparse', -, hheight⟩
    · exact absurd (hvalue.trans hl) nofun
    · obtain rfl := Value.expression.inj (hvalue.trans hparse')
      simpa [Request.ofSlot] using hheight
  case resolve_height =>
    intro text request r h
    exact resolve_eq_some h

/-- A book with expressions that begin with a slot of their own type, one of them being nothing but
the slot, and two levels of nesting. -/
def sumsConfig : Config where
  maxDepth := 2
  phrases :=
    [{ name := Text.ofString "set"
       kind := Text.ofString "effect"
       patterns := [Text.ofString "set %number%"] },
     { name := Text.ofString "sum"
       kind := Text.ofString "expression"
       returns := Text.ofString "number"
       patterns := [Text.ofString "%number% plus %number%"] },
     { name := Text.ofString "same"
       kind := Text.ofString "expression"
       returns := Text.ofString "number"
       patterns := [Text.ofString "%number%"] }]

/-- Sums nest as deeply as the book allows, and a text that each level offers to the next is given
up. -/
theorem nestsWithin_of_build_sums :
    ∃ book, build? Regex.backtracking (some sumsConfig) = .ok book ∧ NestsWithin book 2 ∧
      (book.parse (Text.ofString "set 1 plus 2 plus 3")).map Parse.height = some 3 ∧
      (book.parse (Text.ofString "set x")).isNone := by
  have h : ((build? Regex.backtracking (some sumsConfig)).toOption.any fun book =>
      (book.parse (Text.ofString "set 1 plus 2 plus 3")).map Parse.height == some 3 &&
        (book.parse (Text.ofString "set x")).isNone) := by decide +kernel
  cases hb : build? Regex.backtracking (some sumsConfig) with
  | error reason => simp [hb, Except.toOption] at h
  | ok book =>
    simp only [hb, Except.toOption, Option.any_some, Bool.and_eq_true, beq_iff_eq] at h
    exact ⟨book, rfl, nestsWithin_of_build hb rfl, h⟩

end Book

end Phrasebook
