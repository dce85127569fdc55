import Phrasebook.Proofs.Book.Construction
import Phrasebook.Proofs.Book.Nesting

/-!
# Effects have no say in what fills a slot

Only expressions fill slots.  So the effects that a configuration defines, wherever they stand among
its phrases, make no difference to how a text is resolved or a pattern matched, at any level of
nesting.

* `Config.SameExpressions` : two configurations that may differ in their effects, their names and
  their cases, and in nothing else.
* `Book.SameSlots` : two books that have all in common that slots depend on.
* `Book.sameSlots_of_build` : books of such configurations do.
* `Book.resolveWithin_eq` : such books resolve alike, by induction on the levels left.
* `Book.resolve_eq_of_sameExpressions` : the two together.
-/

namespace Phrasebook

namespace Config

/-- The definitions of expressions, in order. -/
def expressions (config : Config) : List PhraseDefinition :=
  config.phrases.filter fun d => d.kind = PhraseKind.expression.toText

/-- Two configurations agree on all but their effects, names and cases. -/
structure SameExpressions (config config' : Config) : Prop where
  /-- Letter case matters in both or in neither. -/
  caseSensitive : config.caseSensitive = config'.caseSensitive
  /-- Regular expressions have the same time. -/
  regexTimeout : config.regexTimeout = config'.regexTimeout
  /-- Expressions nest as deeply. -/
  maxDepth : config.maxDepth = config'.maxDepth
  /-- The types are the same. -/
  types : config.types = config'.types
  /-- The expressions are the same, in the same order. -/
  expressions : config.expressions = config'.expressions

end Config

namespace Book

variable {dialect : Regex.Dialect} {config config' : Config} {book book' : Book}

/-! ### Expressions -/

theorem kind_of_compiles {r : Registry} {d : PhraseDefinition} {phrase : Phrase}
    (h : Compiles dialect r d phrase) :
    phrase.kind = .expression ↔ d.kind = PhraseKind.expression.toText := by
  have hne : PhraseKind.effect.toText ≠ PhraseKind.expression.toText := by decide
  rcases h.isCompilation.kind with ⟨hd, hphrase, -⟩ | ⟨hd, hphrase, -⟩
  · rw [hd, hphrase]
    exact iff_of_false nofun hne
  · exact iff_of_true hphrase hd

/-- The expressions of a book, in order. -/
def expressions (book : Book) : List Phrase :=
  book.phrases.filter fun phrase => phrase.kind == .expression

/-- The expressions of a book are those of its configuration, compiled. -/
theorem compiles_expressions (h : build? dialect (some config) = .ok book) :
    List.Forall₂ (Compiles dialect book.registry) config.expressions book.expressions := by
  obtain ⟨_, -, -, hphrases, -, -⟩ := build_eq_ok h
  refine List.rel_filter (fun d phrase hcompiles => ?_) (compiles_of_compilePhrases hphrases)
  simp only [beq_iff_eq, decide_eq_true_eq, kind_of_compiles hcompiles]

/-! ### What slots depend on -/

/-- Two books have all in common that slots depend on. -/
structure SameSlots (book book' : Book) : Prop where
  /-- The types are the same, so that patterns are read alike. -/
  registry : book.registry = book'.registry
  /-- Letter case matters in both or in neither. -/
  caseSensitive : book.caseSensitive = book'.caseSensitive
  /-- Expressions nest as deeply. -/
  maxDepth : book.maxDepth = book'.maxDepth
  /-- The expressions are the same, in the same order. -/
  expressions : book.expressions = book'.expressions

/-- Effects, names and cases leave no trace in what slots depend on. -/
theorem sameSlots_of_build (hsame : config.SameExpressions config')
    (hbuild : build? dialect (some config) = .ok book)
    (hbuild' : build? dialect (some config') = .ok book') : SameSlots book book' := by
  obtain ⟨builtins, hbuiltins, htypes, -, hcase, hdepth⟩ := build_eq_ok hbuild
  obtain ⟨builtins', hbuiltins', htypes', -, hcase', hdepth'⟩ := build_eq_ok hbuild'
  have hregistry : book.registry = book'.registry := by
    obtain ⟨rfl, -⟩ := Prod.mk.inj (hbuiltins.symm.trans hbuiltins')
    rw [hsame.types, htypes'] at htypes
    exact (congrArg Prod.fst htypes).symm
  refine ⟨hregistry, ?_, ?_, ?_⟩
  · rw [hcase, hcase', hsame.caseSensitive]
  · rw [hdepth, hdepth', depthOf, depthOf, hsame.maxDepth]
  · -- one definition compiles to one phrase
    have hunique : Relator.RightUnique (Compiles dialect book.registry) :=
      fun d phrase phrase' h h' => Except.ok.inj (h.symm.trans h')
    have hcompiled' := compiles_expressions hbuild'
    rw [← hsame.expressions, ← hregistry] at hcompiled'
    exact List.right_unique_forall₂' hunique (compiles_expressions hbuild) hcompiled'

/-! ### Resolving -/

/-- Of the phrases that answer a request, none is lost when effects are left out. -/
theorem filter_answers (book : Book) (request : Request) :
    book.phrases.filter (answers request) = book.expressions.filter (answers request) := by
  rw [expressions, List.filter_filter]
  refine List.filter_congr fun phrase _ => ?_
  unfold answers
  cases phrase.kind == .expression <;> simp

theorem parseWith_answers_eq (h : SameSlots book book') (resolve : Resolver Value)
    (request : Request) (depth : Int) (input : Text) :
    book.parseWith resolve (answers request) depth input =
      book'.parseWith resolve (answers request) depth input := by
  unfold parseWith
  rw [filter_answers, filter_answers, h.expressions, h.caseSensitive]

/-- **Books with the same expressions resolve alike**, by induction on the nesting levels left. -/
theorem resolveWithin_eq (h : SameSlots book book') (levels : Nat) :
    book.resolveWithin levels = book'.resolveWithin levels := by
  induction levels with
  | zero =>
    funext text request
    unfold resolveWithin
    rw [h.maxDepth]
  | succ levels ih =>
    funext text request
    simp only [resolveWithin, h.maxDepth, ih, parseWith_answers_eq h]

theorem resolve_eq (h : SameSlots book book') : book.resolve = book'.resolve := by
  funext text request
  unfold resolve
  rw [h.maxDepth, resolveWithin_eq h]

theorem matchAt_eq (h : SameSlots book book') (pattern : Pattern) (input : Text) (offset : Int) :
    book.matchAt pattern input offset = book'.matchAt pattern input offset := by
  unfold Book.matchAt matcher
  rw [resolve_eq h, h.caseSensitive]

/-- **Effects never influence how slots are filled.**  Books of two configurations that differ in
their effects, names and cases alone resolve every text alike, whatever the request, read every
pattern alike, and match every pattern alike, at every offset of every input. -/
theorem resolve_eq_of_sameExpressions (hsame : config.SameExpressions config')
    (hbuild : build? dialect (some config) = .ok book)
    (hbuild' : build? dialect (some config') = .ok book') :
    (∀ text request, book.resolve text request = book'.resolve text request) ∧
    (∀ source, Pattern.compile dialect book.registry source =
      Pattern.compile dialect book'.registry source) ∧
    ∀ pattern input offset,
      book.matchAt pattern input offset = book'.matchAt pattern input offset := by
  have hslots := sameSlots_of_build hsame hbuild hbuild'
  refine ⟨fun text request => ?_, fun source => ?_, matchAt_eq hslots⟩
  · rw [resolve_eq hslots]
  · rw [hslots.registry]

/-- The sums of a book whose one effect is gone, with another in front spelled like a sum. -/
def announcedSums : Config where
  name := Text.ofString "announced"
  maxDepth := 2
  phrases :=
    { name := Text.ofString "announce"
      kind := Text.ofString "effect"
      patterns := [Text.ofString "%number% plus %number%"] } :: sumsConfig.phrases.drop 1

/-- A sum by itself parses as another phrase, but a slot is filled with it all the same. -/
theorem resolve_eq_of_sameExpressions_sums :
    ∃ book book', build? Regex.backtracking (some sumsConfig) = .ok book ∧
      build? Regex.backtracking (some announcedSums) = .ok book' ∧
      sumsConfig.SameExpressions announcedSums ∧
      (book.parse (Text.ofString "1 plus 2")).map Parse.describe =
        some (Text.ofString "sum(1, 2)") ∧
      (book'.parse (Text.ofString "1 plus 2")).map Parse.describe =
        some (Text.ofString "announce(1, 2)") ∧
      ∃ pattern, Pattern.compile Regex.backtracking book.registry (Text.ofString "say %number%") =
          .ok pattern ∧
        (book.matchAt pattern (Text.ofString "say 1 plus 2") 0).1.map Outcome.describeValues =
          some [Text.ofString "sum(1, 2)"] ∧
        book'.matchAt pattern (Text.ofString "say 1 plus 2") 0 =
          book.matchAt pattern (Text.ofString "say 1 plus 2") 0 := by
  have h : (build? Regex.backtracking (some sumsConfig)).toOption.any fun book =>
      (book.parse (Text.ofString "1 plus 2")).map Parse.describe ==
          some (Text.ofString "sum(1, 2)") &&
        (Pattern.compile Regex.backtracking book.registry
          (Text.ofString "say %number%")).toOption.any fun pattern =>
            (book.matchAt pattern (Text.ofString "say 1 plus 2") 0).1.map Outcome.describeValues ==
              some [Text.ofString "sum(1, 2)"] := by decide +kernel
  have h' : (build? Regex.backtracking (some announcedSums)).toOption.any fun book =>
      (book.parse (Text.ofString "1 plus 2")).map Parse.describe ==
        some (Text.ofString "announce(1, 2)") := by decide +kernel
  have hsame : sumsConfig.SameExpressions announcedSums :=
    ⟨rfl, rfl, rfl, rfl, by decide +kernel⟩
  cases hbuild : build? Regex.backtracking (some sumsConfig) with
  | error reason => simp [hbuild, Except.toOption] at h
  | ok book =>
    cases hbuild' : build? Regex.backtracking (some announcedSums) with
    | error reason => simp [hbuild', Except.toOption] at h'
    | ok book' =>
      simp only [hbuild, hbuild', Except.toOption, Option.any_some, Bool.and_eq_true, beq_iff_eq]
        at h h'
      obtain ⟨hparse, hmatch⟩ := h
      cases hpattern : Pattern.compile Regex.backtracking book.registry
          (Text.ofString "say %number%") with
      | error reason => simp [hpattern] at hmatch
      | ok pattern =>
        simp only [hpattern, Option.any_some, beq_iff_eq] at hmatch
        obtain ⟨-, -, halike⟩ := resolve_eq_of_sameExpressions hsame hbuild hbuild'
        exact ⟨book, book', rfl, rfl, hsame, hparse, h', pattern, hpattern, hmatch,
          (halike pattern (Text.ofString "say 1 plus 2") 0).symm⟩

end Book

end Phrasebook
