import Phrasebook.Proofs.Book.Nesting

/-!
# A parse is the first match

A book tries the patterns of its phrases one after the other in a single context.  A pattern that
matches only the front of an input is given up without taking back what it collected, so the next
one starts in a context that is not clean and has to be reset.  None of this can be seen in what an
input parses as.

* `Book.IsFirstMatch` : the parse that belongs to the first pattern, in the order of declaration,
  that matches the whole input in a new context of its own.
* `Book.parseWith_eq_some_iff` : an input parses as its first match.
* `Book.parseWith_eq_none_iff` : it does not parse when no pattern matches it.
* `Book.parseWith_eq_firstMatch` : both, at every level of nesting.
-/

namespace Phrasebook

namespace Book

/-- What a pattern gives for a whole input when it is tried by itself, in a new context. -/
def matchAlone (book : Book) (depth : Int) (input : Text) (pattern : Pattern) :
    Option (Outcome Value) :=
  (book.matcher.matchAll input pattern { depth := depth }).1

/-- A parse is that of the first pattern that matches the whole input by itself, among the patterns
of the phrases that are wanted. -/
inductive IsFirstMatch (book : Book) (wanted : Phrase → Bool) (depth : Int) (input : Text) :
    Parse → Prop where
  | intro {before after : List Phrase} {phrase : Phrase} {earlier later : List Pattern}
      {pattern : Pattern} {outcome : Outcome Value}
      (hphrases : book.phrases = before ++ phrase :: after) (hwanted : wanted phrase)
      (hpatterns : phrase.patterns = earlier ++ pattern :: later)
      (hmatch : book.matchAlone depth input pattern = some outcome)
      (hearlier : ∀ p ∈ earlier, book.matchAlone depth input p = none)
      (hbefore : ∀ other ∈ before, wanted other →
        ∀ p ∈ other.patterns, book.matchAlone depth input p = none) :
      IsFirstMatch book wanted depth input ⟨phrase, earlier.length, outcome⟩

/-! ### Trying in a row -/

/-- What a pattern gives by itself, as a parse of its phrase. -/
def attempt (book : Book) (depth : Int) (input : Text) : Phrase × Nat × Pattern → Option Parse
  | (phrase, index, p) =>
    (book.matchAlone depth input p).map fun outcome => ⟨phrase, index, outcome⟩

theorem attempt_eq_none {book : Book} {depth : Int} {input : Text} {phrase : Phrase} {index : Nat}
    {p : Pattern} :
    book.attempt depth input (phrase, index, p) = none ↔ book.matchAlone depth input p = none :=
  Option.map_eq_none_iff

variable {book : Book} {wanted : Phrase → Bool} {depth : Int} {input : Text}

/-- Trying patterns in a row is looking for the first attempt that succeeds. -/
theorem tryEach_snd (candidates : List (Phrase × Nat × Pattern)) :
    (tryEach book.matcher input depth candidates).2 =
      candidates.findSome? (book.attempt depth input) := by
  induction candidates with
  | nil => rfl
  | cons candidate rest ih =>
    obtain ⟨phrase, index, p⟩ := candidate
    rw [tryEach, List.findSome?_cons, attempt, matchAlone]
    generalize book.matcher.matchAll input p { depth := depth } = r
    obtain ⟨outcome, after⟩ := r
    cases outcome with
    | some outcome => rfl
    | none => exact ih

theorem findSome?_candidates {α : Type} (f : Phrase × Nat × Pattern → Option α)
    (phrases : List Phrase) :
    (candidates phrases).findSome? f =
      phrases.findSome? fun phrase =>
        phrase.patterns.zipIdx.findSome? fun (p, index) => f (phrase, index, p) := by
  induction phrases with
  | nil => rfl
  | cons phrase rest ih =>
    rw [candidates_cons, List.findSome?_append, List.findSome?_map, List.findSome?_cons, ih]
    change Option.or (phrase.patterns.zipIdx.findSome? fun (p, index) => f (phrase, index, p)) _ = _
    generalize phrase.patterns.zipIdx.findSome? _ = first
    cases first <;> rfl

/-- What a phrase gives for an input: the first of its patterns that matches. -/
def attemptPhrase (book : Book) (depth : Int) (input : Text) (phrase : Phrase) : Option Parse :=
  phrase.patterns.zipIdx.findSome? fun (p, index) => book.attempt depth input (phrase, index, p)

theorem attemptPhrase_eq_some {phrase : Phrase} {parse : Parse} :
    book.attemptPhrase depth input phrase = some parse ↔
      ∃ earlier pattern later outcome, phrase.patterns = earlier ++ pattern :: later ∧
        book.matchAlone depth input pattern = some outcome ∧
        (∀ p ∈ earlier, book.matchAlone depth input p = none) ∧
        parse = ⟨phrase, earlier.length, outcome⟩ := by
  rw [attemptPhrase, List.findSome?_eq_some_iff]
  constructor
  · rintro ⟨first, ⟨pattern, index⟩, rest, hsplit, hattempt, hfirst⟩
    obtain ⟨earlier, others, hpatterns, rfl, hrest⟩ := List.zipIdx_eq_append_iff.1 hsplit
    obtain ⟨q, later, rfl, hq, -⟩ := List.zipIdx_eq_cons_iff.1 hrest.symm
    obtain ⟨rfl, rfl⟩ := Prod.mk.inj hq
    obtain ⟨outcome, hmatch, rfl⟩ := Option.map_eq_some_iff.1 hattempt
    refine ⟨earlier, pattern, later, outcome, hpatterns, hmatch, fun p hp => ?_, by simp⟩
    obtain ⟨i, hi⟩ := List.mem_iff_getElem?.1 hp
    exact attempt_eq_none.1 (hfirst (p, i) (List.mk_mem_zipIdx_iff_getElem?.2 hi))
  · rintro ⟨earlier, pattern, later, outcome, hpatterns, hmatch, hearlier, rfl⟩
    refine ⟨earlier.zipIdx, (pattern, earlier.length), later.zipIdx (earlier.length + 1),
      ?_, ?_, ?_⟩
    · rw [hpatterns, List.zipIdx_append, List.zipIdx_cons, Nat.zero_add]
    · exact Option.map_eq_some_iff.2 ⟨outcome, hmatch, rfl⟩
    · rintro ⟨p, i⟩ hp
      exact attempt_eq_none.2 (hearlier p (List.fst_mem_of_mem_zipIdx hp))

theorem attemptPhrase_eq_none {phrase : Phrase} :
    book.attemptPhrase depth input phrase = none ↔
      ∀ p ∈ phrase.patterns, book.matchAlone depth input p = none := by
  rw [attemptPhrase, List.findSome?_eq_none_iff]
  constructor
  · intro h p hp
    obtain ⟨i, hi⟩ := List.mem_iff_getElem?.1 hp
    exact attempt_eq_none.1 (h (p, i) (List.mk_mem_zipIdx_iff_getElem?.2 hi))
  · rintro h ⟨p, i⟩ hp
    exact attempt_eq_none.2 (h p (List.fst_mem_of_mem_zipIdx hp))

/-! ### Parsing -/

/-- Parsing in one context is looking for the first phrase that gives something by itself. -/
theorem parseWith_eq_findSome? :
    book.parseWith book.resolve wanted depth input =
      (book.phrases.filter wanted).findSome? (book.attemptPhrase depth input) := by
  rw [← parsing_snd]
  change (tryEach book.matcher input depth (candidates (book.phrases.filter wanted))).2 = _
  rw [tryEach_snd, findSome?_candidates]
  rfl

theorem parseWith_eq_none_iff :
    book.parseWith book.resolve wanted depth input = none ↔
      ∀ phrase ∈ book.phrases, wanted phrase →
        ∀ p ∈ phrase.patterns, book.matchAlone depth input p = none := by
  simp only [parseWith_eq_findSome?, List.findSome?_eq_none_iff, List.mem_filter,
    attemptPhrase_eq_none, and_imp]

theorem parseWith_eq_some_iff {parse : Parse} :
    book.parseWith book.resolve wanted depth input = some parse ↔
      IsFirstMatch book wanted depth input parse := by
  rw [parseWith_eq_findSome?, List.findSome?_eq_some_iff]
  constructor
  · rintro ⟨first, phrase, rest, hfilter, hattempt, hfirst⟩
    obtain ⟨before, others, hphrases, rfl, hothers⟩ := List.filter_eq_append_iff.1 hfilter
    obtain ⟨skipped, after, rfl, hskipped, hwanted, -⟩ := List.filter_eq_cons_iff.1 hothers
    obtain ⟨earlier, pattern, later, outcome, hpatterns, hmatch, hearlier, rfl⟩ :=
      attemptPhrase_eq_some.1 hattempt
    rw [← List.append_assoc] at hphrases
    refine .intro hphrases hwanted hpatterns hmatch hearlier fun other hother hw => ?_
    rcases List.mem_append.1 hother with hbefore | hskip
    · exact attemptPhrase_eq_none.1 (hfirst other (List.mem_filter.2 ⟨hbefore, hw⟩))
    · exact absurd hw (hskipped other hskip)
  · rintro @⟨before, after, phrase, earlier, later, pattern, outcome, hphrases, hwanted, hpatterns,
      hmatch, hearlier, hbefore⟩
    refine ⟨before.filter wanted, phrase, after.filter wanted, ?_, ?_, fun other hother => ?_⟩
    · rw [hphrases, List.filter_append, List.filter_cons_of_pos hwanted]
    · exact attemptPhrase_eq_some.2
        ⟨earlier, pattern, later, outcome, hpatterns, hmatch, hearlier, rfl⟩
    · obtain ⟨hmem, hw⟩ := List.mem_filter.1 hother
      exact attemptPhrase_eq_none.2 (hbefore other hmem hw)

/-- What fills a slot is a literal or, one level further in, what its text parses as. -/
theorem resolve_eq_parseWith (text : Text) (request : Request) :
    book.resolve text request =
      match resolveLiteral text request with
      | some resolution => some resolution
      | none =>
        if request.acceptance = .literals ∨ book.maxDepth ≤ request.depth then none
        else
          (book.parseWith book.resolve (answers request) (request.depth + 1) text).map
            fun parse => ⟨text.length, .expression parse⟩ := by
  rw [← resolving_snd, resolving]
  cases resolveLiteral text request with
  | some resolution => rfl
  | none =>
    simp only
    split_ifs
    · rfl
    · rw [parsing_snd]

/-- **Using one context for all patterns cannot be seen.**  What an input parses as, at any nesting
level and among any of the phrases, is its first match; it does not parse when no pattern matches it
by itself; and the expressions that fill slots are found by parsing in just this way, one level
further in. -/
theorem parseWith_eq_firstMatch (book : Book) :
    (∀ wanted depth input,
      (∀ parse, book.parseWith book.resolve wanted depth input = some parse ↔
        IsFirstMatch book wanted depth input parse) ∧
      (book.parseWith book.resolve wanted depth input = none ↔
        ∀ phrase ∈ book.phrases, wanted phrase →
          ∀ p ∈ phrase.patterns, book.matchAlone depth input p = none)) ∧
    ∀ text request, book.resolve text request =
      match resolveLiteral text request with
      | some resolution => some resolution
      | none =>
        if request.acceptance = .literals ∨ book.maxDepth ≤ request.depth then none
        else
          (book.parseWith book.resolve (answers request) (request.depth + 1) text).map
            fun parse => ⟨text.length, .expression parse⟩ :=
  ⟨fun _ _ _ => ⟨fun _ => parseWith_eq_some_iff, parseWith_eq_none_iff⟩, resolve_eq_parseWith⟩

end Book

end Phrasebook
