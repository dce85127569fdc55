import Phrasebook.Book.Error
import Phrasebook.Book.Phrase
import Phrasebook.Config
import Phrasebook.Pattern.Compile

/-!
# Books of phrases

A book is built from a configuration: its types are registered after the built-in ones, and the
patterns of its phrases are compiled. Nothing is built when anything is faulty.

An input parses as the first phrase, in the order of declaration, with a pattern that matches all of
it. A slot is filled by a literal or, failing that, by an expression whose type the slot accepts;
expressions nest up to the book's depth.
-/

namespace Phrasebook

/-- A book of phrases. -/
structure Book where
  /-- Its name. -/
  name : Text
  /-- The value types. -/
  registry : Registry
  /-- Whether the case of letters in patterns matters. -/
  caseSensitive : Bool
  /-- How deeply expressions may nest. -/
  maxDepth : Int
  /-- The phrases in the order of declaration. -/
  phrases : List Phrase
  /-- The cases it is checked by. -/
  cases : List Case

namespace Book

/-! ### Building -/

/-- The form of constants that a name stands for; `none` for a type without constants. -/
def formOf (d : TypeDefinition) : Except TypeFault (Option LiteralForm) :=
  if d.literal.isEmpty then .ok none
  else if d.literal = Text.ofString "number" then .ok (some .number)
  else if d.literal = Text.ofString "integer" then .ok (some .integer)
  else if d.literal = Text.ofString "string" then .ok (some .string)
  else if d.literal = Text.ofString "boolean" then .ok (some .boolean)
  else if d.literal = Text.ofString "word" then
    if d.values.isEmpty then .error .noWords else .ok (some (.word d.values))
  else .error (.unknownForm d.literal)

/-- The expression for the spellings of a type: the given one, or the name with an optional plural
"s". -/
def spellingsOf (dialect : Regex.Dialect) (d : TypeDefinition) : Text :=
  if d.pattern.isEmpty then
    dialect.quote d.name ++ Text.ofString "(?<" ++ pluralGroup ++ Text.ofString ">s)?"
  else d.pattern

/-- Registers a defined type. -/
def registerType (dialect : Regex.Dialect) (r : Registry) (d : TypeDefinition) :
    Except TypeFault Registry :=
  match formOf d with
  | .error fault => .error fault
  | .ok form =>
    let kind := match form with
      | some form => Kind.ofForm form
      | none => .any
    match r.register dialect d.name kind (spellingsOf dialect d) form with
    | .ok (r, _) => .ok r
    | .error error => .error (.refused error)

/-- Registers defined types in order. Faulty ones are left out and listed. -/
def registerTypes (dialect : Regex.Dialect) (r : Registry) :
    List TypeDefinition → Registry × List (Text × TypeFault)
  | [] => (r, [])
  | d :: rest =>
    match registerType dialect r d with
    | .ok r => registerTypes dialect r rest
    | .error fault =>
      let (r, faults) := registerTypes dialect r rest
      (r, (d.name, fault) :: faults)

/-- Compiles patterns, or lists the errors of all that cannot be compiled. -/
def compileAll (dialect : Regex.Dialect) (r : Registry) (sources : List Text) :
    Except (List Pattern.CompileError) (List Pattern) :=
  let results := sources.map (Pattern.compile dialect r)
  let errors := results.filterMap fun
    | .ok _ => none
    | .error e => some e
  if errors.isEmpty then
    .ok (results.filterMap fun
      | .ok p => some p
      | .error _ => none)
  else .error errors

/-- The kind of a defined phrase and the type of its values. -/
def kindOf (r : Registry) (d : PhraseDefinition) :
    Except PhraseFault (PhraseKind × Option ValueType) :=
  if d.kind = PhraseKind.effect.toText then
    if d.returns.isEmpty then .ok (.effect, none) else .error .effectReturns
  else if d.kind = PhraseKind.expression.toText then
    match r.typeRef? d.returns with
    | some ref => .ok (.expression, ref.type)
    | none => .error (.unknownReturn d.returns)
  else .error (.unknownKind d.kind)

/-- Compiles a defined phrase. -/
def compilePhrase (dialect : Regex.Dialect) (r : Registry) (d : PhraseDefinition) :
    Except PhraseFault Phrase :=
  if d.name.isEmpty then .error .missingName
  else if d.patterns.isEmpty then .error .noPatterns
  else
    match kindOf r d with
    | .error fault => .error fault
    | .ok (kind, returns) =>
      match compileAll dialect r d.patterns with
      | .error errors => .error (.badPatterns errors)
      | .ok patterns => .ok ⟨d.name, kind, returns, d.patterns, patterns⟩

/-- Compiles defined phrases in order, `names` being those of the phrases before. Faulty ones, and
those named like an earlier one, are left out and listed. -/
def compilePhrases (dialect : Regex.Dialect) (r : Registry) (names : List Text) :
    List PhraseDefinition → List Phrase × List (Text × PhraseFault)
  | [] => ([], [])
  | d :: rest =>
    match compilePhrase dialect r d with
    | .error fault =>
      let (phrases, faults) := compilePhrases dialect r names rest
      (phrases, (d.name, fault) :: faults)
    | .ok phrase =>
      if names.contains phrase.name then
        let (phrases, faults) := compilePhrases dialect r names rest
        (phrases, (d.name, .declaredTwice) :: faults)
      else
        let (phrases, faults) := compilePhrases dialect r (phrase.name :: names) rest
        (phrase :: phrases, faults)

/-- The time that regular expressions may take; only its form is checked. -/
def checkTimeout (text : Text) : Except BuildError Unit :=
  if text.isEmpty then .ok ()
  else
    match Duration.ofText text with
    | .ok _ => .ok ()
    | .error error => .error (.badTimeout error)

/-- The depth that a configuration asks for. -/
def depthOf (config : Config) : Int :=
  if config.maxDepth ≤ 0 then Config.usualDepth else config.maxDepth

/-- Builds a book. -/
def build (dialect : Regex.Dialect) (config : Config) : Except BuildError Book :=
  match checkTimeout config.regexTimeout with
  | .error error => .error error
  | .ok () =>
    match Registry.empty.registerBuiltins dialect with
    | (_, some error) => .error (.builtin error)
    | (builtins, none) =>
      match registerTypes dialect builtins config.types with
      | (_, fault :: faults) => .error (.types (fault :: faults))
      | (registry, []) =>
        match compilePhrases dialect registry [] config.phrases with
        | (_, fault :: faults) => .error (.phrases (fault :: faults))
        | (phrases, []) =>
          .ok ⟨config.name, registry, config.caseSensitive, depthOf config, phrases, config.cases⟩

/-- Builds a book from a configuration that may be missing. -/
def build? (dialect : Regex.Dialect) (config : Option Config) : Except BuildError Book :=
  match config with
  | none => .error .noConfig
  | some config => build dialect config

/-- The book that takes the place of another: the new one, or the former if it cannot be built. -/
def reload (dialect : Regex.Dialect) (book : Book) (config : Option Config) :
    Book × Option BuildError :=
  match build? dialect config with
  | .ok new => (new, none)
  | .error error => (book, some error)

/-! ### Parsing -/

/-- Resolves a text as a literal. -/
def resolveLiteral : Resolver Value := fun text request =>
  if request.acceptance = .expressions then none
  else (Literal.read text request.types).map fun l => ⟨text.length, .literal l⟩

/-- Tries the patterns of a phrase, the first having this index, in one context. -/
def tryPatterns (matcher : Matcher Value) (input : Text) (phrase : Phrase) (index : Nat)
    (ctx : Context Value) : List Pattern → Option Parse × Context Value
  | [] => (none, ctx)
  | p :: rest =>
    match matcher.matchAll input p ctx.reset with
    | (some outcome, ctx) => (some ⟨phrase, index, outcome⟩, ctx)
    | (none, ctx) => tryPatterns matcher input phrase (index + 1) ctx rest

/-- Tries phrases in one context. -/
def tryPhrases (matcher : Matcher Value) (input : Text) (ctx : Context Value) :
    List Phrase → Option Parse
  | [] => none
  | phrase :: rest =>
    match tryPatterns matcher input phrase 0 ctx phrase.patterns with
    | (some parse, _) => some parse
    | (none, ctx) => tryPhrases matcher input ctx rest

/-- The first parse of an input at a nesting level among the phrases that are wanted. -/
def parseWith (book : Book) (resolve : Resolver Value) (wanted : Phrase → Bool) (depth : Int)
    (input : Text) : Option Parse :=
  tryPhrases ⟨some resolve, book.caseSensitive⟩ input { depth := depth }
    (book.phrases.filter wanted)

/-- Whether a phrase is an expression of a type that the request accepts. -/
def answers (request : Request) (phrase : Phrase) : Bool :=
  phrase.kind == .expression &&
    match phrase.returns with
    | some type => (request.accepts? type.name).isSome
    | none => false

/-- Resolves a text as a literal or as an expression, nesting no more than `levels` deep. -/
def resolveWithin (book : Book) (levels : Nat) : Resolver Value := fun text request =>
  match resolveLiteral text request with
  | some resolution => some resolution
  | none =>
    if request.acceptance = .literals ∨ book.maxDepth ≤ request.depth then none
    else
      match levels with
      | 0 => none
      | levels + 1 =>
        (book.parseWith (book.resolveWithin levels) (answers request) (request.depth + 1) text).map
          fun parse => ⟨text.length, .expression parse⟩

/-- Resolves a text as a literal or, failing that, as an expression. From the request's nesting
level there are only so many levels up to the book's depth, which bounds the nesting. -/
def resolve (book : Book) : Resolver Value := fun text request =>
  book.resolveWithin (book.maxDepth - request.depth).toNat text request

/-- The matcher of a book. -/
def matcher (book : Book) : Matcher Value :=
  ⟨some book.resolve, book.caseSensitive⟩

/-- What an input parses as. -/
def parse (book : Book) (input : Text) : Option Parse :=
  book.parseWith book.resolve (fun _ => true) 0 input

/-- Matches a pattern at an offset without asking for the rest of the input to match. -/
def matchAt (book : Book) (pattern : Pattern) (input : Text) (offset : Int) :
    Option (Outcome Value) × Context Value :=
  match book.matcher.matchAt input pattern offset {} with
  | (some stop, ctx) => (some (ctx.outcome stop), ctx)
  | (none, ctx) => (none, ctx)

end Book

end Phrasebook
