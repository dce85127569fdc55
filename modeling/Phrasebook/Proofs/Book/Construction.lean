import Mathlib.Data.List.Forall2
import Phrasebook.Book
import Phrasebook.Proofs.Registry.Runs

/-!
# How books come about

Building a book looks at all types and then, if none of them is faulty, at all phrases, and it lists
what is wrong: one entry for each faulty definition, in the order in which they are declared.  Only
when there is nothing to list is there a book.

* `ListsAll` : a list has what is found at each place, once and in order.
* `Book.TypeFaultAt`, `Book.PhraseFaultAt` : what is wrong with the definition at a place.
* `Book.listsAll_registerTypes`, `Book.listsAll_compilePhrases` : these are the faults that are
  listed.
* `Book.IsCompilation` : what becomes of a definition without faults.
* `Book.build_all_or_nothing` : **either all faults are reported or there is a book of all
  definitions.**
-/

namespace Phrasebook

/-! ### Lists of what is found at places -/

/-- A list has what is found at each place where there is something, one entry for each such place
and in their order. -/
def ListsAll {β : Type} (found : Nat → β → Prop) (entries : List β) : Prop :=
  ∃ places : List Nat, places.Pairwise (· < ·) ∧ (∀ i, i ∈ places ↔ ∃ entry, found i entry) ∧
    List.Forall₂ found places entries

namespace ListsAll

variable {β : Type} {found : Nat → β → Prop} {entry : β} {entries : List β}

theorem nil (h : ∀ i entry, ¬ found i entry) : ListsAll found [] := by
  refine ⟨[], .nil, fun i => ?_, .nil⟩
  simpa using h i

/-- The places after the first. -/
theorem pairwise_succ {places : List Nat} (h : places.Pairwise (· < ·)) :
    (places.map (· + 1)).Pairwise (· < ·) :=
  List.pairwise_map.2 (h.imp Nat.succ_lt_succ)

/-- Something is found at the first place, and the rest is listed. -/
theorem cons (hfirst : found 0 entry) (h : ListsAll (fun i => found (i + 1)) entries) :
    ListsAll found (entry :: entries) := by
  obtain ⟨places, hsorted, hplaces, hfound⟩ := h
  refine ⟨0 :: places.map (· + 1), ?_, ?_, .cons hfirst (List.forall₂_map_left_iff.2 hfound)⟩
  · refine List.pairwise_cons.2 ⟨fun i hi => ?_, pairwise_succ hsorted⟩
    obtain ⟨j, -, rfl⟩ := List.mem_map.1 hi
    exact Nat.succ_pos j
  · intro i
    cases i with
    | zero => exact iff_of_true List.mem_cons_self ⟨entry, hfirst⟩
    | succ i => simpa using hplaces i

/-- Nothing is found at the first place, and the rest is listed. -/
theorem skip (hfirst : ∀ entry, ¬ found 0 entry) (h : ListsAll (fun i => found (i + 1)) entries) :
    ListsAll found entries := by
  obtain ⟨places, hsorted, hplaces, hfound⟩ := h
  refine ⟨places.map (· + 1), pairwise_succ hsorted, ?_, List.forall₂_map_left_iff.2 hfound⟩
  intro i
  cases i with
  | zero => simpa using hfirst
  | succ i => simpa using hplaces i

theorem congr {found' : Nat → β → Prop} (h : ListsAll found entries)
    (hfound : ∀ i entry, found i entry ↔ found' i entry) : ListsAll found' entries := by
  have hsame : found = found' := by
    funext i entry
    exact propext (hfound i entry)
  exact hsame ▸ h

/-- Going through a list leaves what is found at its places. -/
theorem filterMap {α : Type} (f : α → Option β) (l : List α) :
    ListsAll (fun i entry => ∃ a, l[i]? = some a ∧ f a = some entry) (l.filterMap f) := by
  induction l with
  | nil => exact .nil (by simp)
  | cons a rest ih =>
    cases ha : f a with
    | none =>
      rw [List.filterMap_cons_none ha]
      exact .skip (by simp [ha]) ih
    | some entry =>
      rw [List.filterMap_cons_some ha]
      exact .cons ⟨a, rfl, ha⟩ ih

theorem eq_nil_iff (h : ListsAll found entries) : entries = [] ↔ ∀ i entry, ¬ found i entry := by
  obtain ⟨places, -, hplaces, hfound⟩ := h
  constructor
  · rintro rfl i entry hentry
    cases hfound with
    | nil => exact List.not_mem_nil ((hplaces i).2 ⟨entry, hentry⟩)
  · intro hnone
    cases hfound with
    | nil => rfl
    | cons hfirst _ => exact absurd hfirst (hnone _ _)

end ListsAll

namespace Book

variable {dialect : Regex.Dialect} {config : Config} {book : Book}

/-! ### Types -/

/-- The registry after definitions of types, of which those that are refused leave no trace. -/
def registryAfter (dialect : Regex.Dialect) (r : Registry) (definitions : List TypeDefinition) :
    Registry :=
  definitions.foldl (fun r d => (registerType dialect r d).toOption.getD r) r

/-- What is wrong with the type that is defined at a place: it is refused by the registry that the
definitions before it lead to. -/
def TypeFaultAt (dialect : Regex.Dialect) (r : Registry) (definitions : List TypeDefinition)
    (i : Nat) (entry : Text × TypeFault) : Prop :=
  ∃ d fault, definitions[i]? = some d ∧ entry = (d.name, fault) ∧
    registerType dialect (registryAfter dialect r (definitions.take i)) d = .error fault

/-- **The faults of types are listed**, and what is refused does not stand in the way of what comes
after it. -/
theorem listsAll_registerTypes (dialect : Regex.Dialect) (r : Registry)
    (definitions : List TypeDefinition) :
    (registerTypes dialect r definitions).1 = registryAfter dialect r definitions ∧
      ListsAll (TypeFaultAt dialect r definitions) (registerTypes dialect r definitions).2 := by
  induction definitions generalizing r with
  | nil =>
    refine ⟨rfl, .nil ?_⟩
    rintro i entry ⟨d, fault, hd, -⟩
    simp at hd
  | cons d rest ih =>
    have hstep : registryAfter dialect r (d :: rest) =
        registryAfter dialect ((registerType dialect r d).toOption.getD r) rest := rfl
    have hshift (i : Nat) : TypeFaultAt dialect r (d :: rest) (i + 1) =
        TypeFaultAt dialect ((registerType dialect r d).toOption.getD r) rest i := rfl
    have hfirst : TypeFaultAt dialect r (d :: rest) 0 = fun entry =>
        ∃ fault, entry = (d.name, fault) ∧ registerType dialect r d = .error fault := by
      funext entry
      simp [TypeFaultAt, registryAfter]
    unfold registerTypes
    rw [hstep]
    cases hd : registerType dialect r d with
    | ok r' =>
      obtain ⟨hregistry, hlists⟩ := ih r'
      refine ⟨hregistry, .skip ?_ ?_⟩
      · rw [hfirst]
        rintro entry ⟨fault, -, hfault⟩
        rw [hd] at hfault
        cases hfault
      · simp only [hshift, hd]
        exact hlists
    | error fault =>
      obtain ⟨hregistry, hlists⟩ := ih r
      refine ⟨hregistry, .cons ?_ ?_⟩
      · rw [hfirst]
        exact ⟨fault, rfl, hd⟩
      · simp only [hshift, hd]
        exact hlists

/-! ### Phrases -/

section Phrases

variable {r : Registry} {d : PhraseDefinition}

/-- What is wrong with the source at a place. -/
def SourceFaultAt (dialect : Regex.Dialect) (r : Registry) (sources : List Text) (i : Nat)
    (error : Pattern.CompileError) : Prop :=
  ∃ source, sources[i]? = some source ∧ Pattern.compile dialect r source = .error error

/-- The kind and the type of a definition make sense: it is an effect that names no type, or an
expression of a type that is known. -/
def KindValid (r : Registry) (d : PhraseDefinition) : Prop :=
  (d.kind = PhraseKind.effect.toText ∧ d.returns = []) ∨
    (d.kind = PhraseKind.expression.toText ∧ ∃ ref, r.typeRef? d.returns = some ref)

/-- A definition that is valid by itself. -/
structure Valid (dialect : Regex.Dialect) (r : Registry) (d : PhraseDefinition) : Prop where
  /-- It has a name. -/
  name : d.name ≠ []
  /-- It has patterns. -/
  patterns : d.patterns ≠ []
  /-- Its kind and its type make sense. -/
  kind : KindValid r d
  /-- All its patterns can be compiled. -/
  compiles : ∀ source ∈ d.patterns, ∃ p, Pattern.compile dialect r source = .ok p

/-- What is wrong with a definition by itself.  The first of these that applies is reported: the
name, the patterns, the kind with the type and, last, what is in the patterns. -/
inductive Invalid (dialect : Regex.Dialect) (r : Registry) (d : PhraseDefinition) :
    PhraseFault → Prop where
  /-- It has no name. -/
  | missingName (h : d.name = []) : Invalid dialect r d .missingName
  /-- It has no patterns. -/
  | noPatterns (hname : d.name ≠ []) (h : d.patterns = []) : Invalid dialect r d .noPatterns
  /-- It is neither an effect nor an expression. -/
  | unknownKind (hname : d.name ≠ []) (hpatterns : d.patterns ≠ [])
      (heffect : d.kind ≠ PhraseKind.effect.toText)
      (hexpression : d.kind ≠ PhraseKind.expression.toText) :
      Invalid dialect r d (.unknownKind d.kind)
  /-- It is an effect and names a type. -/
  | effectReturns (hname : d.name ≠ []) (hpatterns : d.patterns ≠ [])
      (hkind : d.kind = PhraseKind.effect.toText) (h : d.returns ≠ []) :
      Invalid dialect r d .effectReturns
  /-- It is an expression of a type that is not known. -/
  | unknownReturn (hname : d.name ≠ []) (hpatterns : d.patterns ≠ [])
      (hkind : d.kind = PhraseKind.expression.toText) (h : r.typeRef? d.returns = none) :
      Invalid dialect r d (.unknownReturn d.returns)
  /-- Some of its patterns cannot be compiled, and the errors of all those are listed. -/
  | badPatterns {errors : List Pattern.CompileError} (hname : d.name ≠ [])
      (hpatterns : d.patterns ≠ []) (hkind : KindValid r d) (hne : errors ≠ [])
      (h : ListsAll (SourceFaultAt dialect r d.patterns) errors) :
      Invalid dialect r d (.badPatterns errors)

/-- What a definition without faults becomes: a phrase of its name, kind and type, with each of its
patterns compiled. -/
structure IsCompilation (dialect : Regex.Dialect) (r : Registry) (d : PhraseDefinition)
    (phrase : Phrase) : Prop where
  /-- It has the name of the definition. -/
  name : phrase.name = d.name
  /-- It has its kind, and an expression its type. -/
  kind : (d.kind = PhraseKind.effect.toText ∧ phrase.kind = .effect ∧ phrase.returns = none) ∨
    (d.kind = PhraseKind.expression.toText ∧ phrase.kind = .expression ∧
      ∃ ref, r.typeRef? d.returns = some ref ∧ phrase.returns = ref.type)
  /-- The patterns as written are its patterns. -/
  sources : phrase.sources = d.patterns
  /-- Each compiled pattern is what the source at its place is compiled to. -/
  patterns : List.Forall₂ (fun source p => Pattern.compile dialect r source = .ok p)
    phrase.sources phrase.patterns

/-- A valid definition has no faults. -/
theorem Valid.not_invalid (h : Valid dialect r d) (fault : PhraseFault) :
    ¬ Invalid dialect r d fault := by
  have heffect : PhraseKind.effect.toText ≠ PhraseKind.expression.toText := by decide
  intro hinvalid
  cases hinvalid with
  | missingName hname => exact h.name hname
  | noPatterns _ hpatterns => exact h.patterns hpatterns
  | unknownKind _ _ hnot hnot' =>
    rcases h.kind with ⟨hkind, -⟩ | ⟨hkind, -⟩
    · exact hnot hkind
    · exact hnot' hkind
  | effectReturns _ _ hkind hreturns =>
    rcases h.kind with ⟨-, hnone⟩ | ⟨hkind', -⟩
    · exact hreturns hnone
    · exact heffect (hkind.symm.trans hkind')
  | unknownReturn _ _ hkind hreturns =>
    rcases h.kind with ⟨hkind', -⟩ | ⟨-, ref, href⟩
    · exact heffect (hkind'.symm.trans hkind)
    · exact absurd (hreturns.symm.trans href) nofun
  | badPatterns _ _ _ hne hlists =>
    refine hne (hlists.eq_nil_iff.2 ?_)
    rintro i error ⟨source, hsource, herror⟩
    obtain ⟨p, hp⟩ := h.compiles source (List.mem_of_getElem? hsource)
    exact absurd (hp.symm.trans herror) nofun

/-- The errors of sources are listed. -/
theorem listsAll_errors (dialect : Regex.Dialect) (r : Registry) (sources : List Text) :
    ListsAll (SourceFaultAt dialect r sources)
      ((sources.map (Pattern.compile dialect r)).filterMap fun
        | .ok _ => none
        | .error e => some e) := by
  rw [List.filterMap_map]
  refine (ListsAll.filterMap _ sources).congr fun i error => exists_congr fun source => ?_
  refine and_congr_right fun _ => ?_
  simp only [Function.comp_apply]
  cases Pattern.compile dialect r source <;> simp

/-- Sources without errors are compiled one by one. -/
theorem forall₂_compile {sources : List Text}
    (h : ∀ source ∈ sources, ∃ p, Pattern.compile dialect r source = .ok p) :
    List.Forall₂ (fun source p => Pattern.compile dialect r source = .ok p) sources
      ((sources.map (Pattern.compile dialect r)).filterMap fun
        | .ok p => some p
        | .error _ => none) := by
  induction sources with
  | nil => exact .nil
  | cons source rest ih =>
    obtain ⟨⟨p, hp⟩, hrest⟩ := List.forall_mem_cons.1 h
    simp only [List.map_cons, hp, List.filterMap_cons]
    exact .cons hp (ih hrest)

theorem compileAll_cases (dialect : Regex.Dialect) (r : Registry) (sources : List Text) :
    (∃ errors, compileAll dialect r sources = .error errors ∧ errors ≠ [] ∧
      ListsAll (SourceFaultAt dialect r sources) errors) ∨
    (∃ patterns, compileAll dialect r sources = .ok patterns ∧
      (∀ source ∈ sources, ∃ p, Pattern.compile dialect r source = .ok p) ∧
      List.Forall₂ (fun source p => Pattern.compile dialect r source = .ok p) sources patterns) := by
  have hlists := listsAll_errors dialect r sources
  unfold compileAll
  simp only
  split_ifs with hempty
  · right
    rw [List.isEmpty_iff] at hempty
    have hnone := hlists.eq_nil_iff.1 hempty
    have hall : ∀ source ∈ sources, ∃ p, Pattern.compile dialect r source = .ok p := by
      intro source hsource
      obtain ⟨i, hi⟩ := List.mem_iff_getElem?.1 hsource
      cases hp : Pattern.compile dialect r source with
      | ok p => exact ⟨p, rfl⟩
      | error error => exact absurd ⟨source, hi, hp⟩ (hnone i error)
    exact ⟨_, rfl, hall, forall₂_compile hall⟩
  · left
    rw [List.isEmpty_iff] at hempty
    exact ⟨_, rfl, hempty, hlists⟩

/-- **A definition is valid and compiled, or one fault of it is reported.** -/
theorem compilePhrase_cases (dialect : Regex.Dialect) (r : Registry) (d : PhraseDefinition) :
    (∃ fault, compilePhrase dialect r d = .error fault ∧ Invalid dialect r d fault) ∨
    (∃ phrase, compilePhrase dialect r d = .ok phrase ∧ Valid dialect r d ∧
      IsCompilation dialect r d phrase) := by
  unfold compilePhrase
  simp only [List.isEmpty_iff]
  split_ifs with hname hpatterns
  · exact .inl ⟨_, rfl, .missingName hname⟩
  · exact .inl ⟨_, rfl, .noPatterns hname hpatterns⟩
  · unfold kindOf
    simp only [List.isEmpty_iff]
    split_ifs with heffect hreturns hexpression
    · have hkind : KindValid r d := .inl ⟨heffect, hreturns⟩
      rcases compileAll_cases dialect r d.patterns with
        ⟨errors, herrors, hne, hlists⟩ | ⟨patterns, hcompiled, hall, hforall⟩
      · simp only [herrors]
        exact .inl ⟨_, rfl, .badPatterns hname hpatterns hkind hne hlists⟩
      · simp only [hcompiled]
        exact .inr ⟨_, rfl, ⟨hname, hpatterns, hkind, hall⟩,
          ⟨rfl, .inl ⟨heffect, rfl, rfl⟩, rfl, hforall⟩⟩
    · exact .inl ⟨_, rfl, .effectReturns hname hpatterns heffect hreturns⟩
    · cases href : r.typeRef? d.returns with
      | none => exact .inl ⟨_, rfl, .unknownReturn hname hpatterns hexpression href⟩
      | some ref =>
        have hkind : KindValid r d := .inr ⟨hexpression, ref, href⟩
        rcases compileAll_cases dialect r d.patterns with
          ⟨errors, herrors, hne, hlists⟩ | ⟨patterns, hcompiled, hall, hforall⟩
        · simp only [herrors]
          exact .inl ⟨_, rfl, .badPatterns hname hpatterns hkind hne hlists⟩
        · simp only [hcompiled]
          exact .inr ⟨_, rfl, ⟨hname, hpatterns, hkind, hall⟩,
            ⟨rfl, .inr ⟨hexpression, rfl, ref, href, rfl⟩, rfl, hforall⟩⟩
    · exact .inl ⟨_, rfl, .unknownKind hname hpatterns heffect hexpression⟩

/-- What is wrong with the phrase that is defined at a place: it is not valid by itself, or it is and
an earlier one that is valid too has its name. -/
def PhraseFaultAt (dialect : Regex.Dialect) (r : Registry) (definitions : List PhraseDefinition)
    (i : Nat) (entry : Text × PhraseFault) : Prop :=
  ∃ d fault, definitions[i]? = some d ∧ entry = (d.name, fault) ∧
    (Invalid dialect r d fault ∨
      (fault = .declaredTwice ∧ Valid dialect r d ∧
        ∃ earlier ∈ definitions.take i, Valid dialect r earlier ∧ earlier.name = d.name))

/-- The names of the valid ones among definitions. -/
def ValidNames (dialect : Regex.Dialect) (r : Registry) (definitions : List PhraseDefinition)
    (names : List Text) : Prop :=
  ∀ name, name ∈ names ↔ ∃ d ∈ definitions, Valid dialect r d ∧ d.name = name

theorem ValidNames.concat {before : List PhraseDefinition} {names names' : List Text}
    (h : ValidNames dialect r before names)
    (hnames : ∀ name, name ∈ names' ↔ name ∈ names ∨ (Valid dialect r d ∧ d.name = name)) :
    ValidNames dialect r (before ++ [d]) names' := by
  intro name
  rw [hnames name, h name]
  simp only [List.mem_append, List.mem_singleton, or_and_right, exists_or, exists_eq_left]

/-- The definition after others, of which the names of the valid ones are known. -/
theorem phraseFaultAt_length {before : List PhraseDefinition} {names : List Text}
    (hnames : ValidNames dialect r before names) (rest : List PhraseDefinition)
    (entry : Text × PhraseFault) :
    PhraseFaultAt dialect r (before ++ d :: rest) before.length entry ↔
      ∃ fault, entry = (d.name, fault) ∧ (Invalid dialect r d fault ∨
        (fault = .declaredTwice ∧ Valid dialect r d ∧ d.name ∈ names)) := by
  have hd : (before ++ d :: rest)[before.length]? = some d := by simp
  simp only [PhraseFaultAt, hd, List.take_left, hnames d.name]
  constructor
  · rintro ⟨d', fault, hd', h⟩
    obtain rfl := Option.some.inj hd'
    exact ⟨fault, h⟩
  · rintro ⟨fault, h⟩
    exact ⟨d, fault, rfl, h⟩

/-- The faults of definitions that come after others are listed, if the names of the valid ones among
those others are known. -/
theorem listsAll_compilePhrases_after {before : List PhraseDefinition} {names : List Text}
    (hnames : ValidNames dialect r before names) (rest : List PhraseDefinition) :
    ListsAll (fun i => PhraseFaultAt dialect r (before ++ rest) (before.length + i))
      (compilePhrases dialect r names rest).2 := by
  induction rest generalizing before names with
  | nil =>
    refine .nil ?_
    rintro i entry ⟨d, fault, hd, -⟩
    simp at hd
  | cons d rest ih =>
    have hfirst := phraseFaultAt_length (d := d) hnames rest
    -- the places after the first are those of the rest, with one more definition before it
    have hshift : (fun i => PhraseFaultAt dialect r (before ++ d :: rest) (before.length + (i + 1))) =
        fun i => PhraseFaultAt dialect r ((before ++ [d]) ++ rest) ((before ++ [d]).length + i) := by
      funext i
      rw [List.append_assoc, List.length_append, List.length_singleton, List.singleton_append,
        Nat.add_assoc, Nat.add_comm 1 i]
    unfold compilePhrases
    rcases compilePhrase_cases dialect r d with
      ⟨fault, hfault, hinvalid⟩ | ⟨phrase, hphrase, hvalid, hcompiled⟩
    · simp only [hfault]
      refine .cons ((hfirst _).2 ⟨fault, rfl, .inl hinvalid⟩) ?_
      rw [hshift]
      refine ih (hnames.concat fun name => (or_iff_left ?_).symm)
      exact fun ⟨hvalid, _⟩ => hvalid.not_invalid fault hinvalid
    · simp only [hphrase, hcompiled.name, List.contains_iff_mem]
      split_ifs with htwice
      · refine .cons ((hfirst _).2 ⟨_, rfl, .inr ⟨rfl, hvalid, htwice⟩⟩) ?_
        rw [hshift]
        refine ih (hnames.concat fun name => (or_iff_left_of_imp ?_).symm)
        rintro ⟨-, rfl⟩
        exact htwice
      · refine .skip ?_ ?_
        · intro entry hentry
          obtain ⟨fault, -, hinvalid | ⟨-, -, hmem⟩⟩ := (hfirst entry).1 hentry
          · exact hvalid.not_invalid fault hinvalid
          · exact htwice hmem
        · rw [hshift]
          refine ih (hnames.concat fun name => ?_)
          rw [List.mem_cons, or_comm, and_iff_right hvalid, eq_comm]

/-- **The faults of phrases are listed.** -/
theorem listsAll_compilePhrases (dialect : Regex.Dialect) (r : Registry)
    (definitions : List PhraseDefinition) :
    ListsAll (PhraseFaultAt dialect r definitions)
      (compilePhrases dialect r [] definitions).2 := by
  have hnames : ValidNames dialect r [] [] := fun name => by simp
  have h := listsAll_compilePhrases_after hnames definitions
  simpa using h

/-- Phrases are without faults when each is valid by itself and no two have one name. -/
theorem forall_not_phraseFaultAt_iff {definitions : List PhraseDefinition} :
    (∀ i entry, ¬ PhraseFaultAt dialect r definitions i entry) ↔
      (∀ d ∈ definitions, Valid dialect r d) ∧ (definitions.map PhraseDefinition.name).Nodup := by
  constructor
  · intro hnone
    have hvalid : ∀ d ∈ definitions, Valid dialect r d := by
      intro d hd
      obtain ⟨i, hi⟩ := List.mem_iff_getElem?.1 hd
      rcases compilePhrase_cases dialect r d with ⟨fault, -, hinvalid⟩ | ⟨-, -, hvalid, -⟩
      · exact absurd ⟨d, fault, hi, rfl, .inl hinvalid⟩ (hnone i (d.name, fault))
      · exact hvalid
    refine ⟨hvalid, List.pairwise_iff_getElem.2 ?_⟩
    intro i j hi hj hij heq
    simp only [List.length_map, List.getElem_map] at hi hj heq
    -- the later of two definitions of one name would be a fault
    have hmem : definitions[i] ∈ definitions.take j :=
      List.mem_take_iff_getElem.2 ⟨i, by omega, rfl⟩
    exact hnone j _ ⟨definitions[j], .declaredTwice, List.getElem?_eq_getElem hj, rfl,
      .inr ⟨rfl, hvalid _ (List.getElem_mem hj), _, hmem, hvalid _ (List.getElem_mem hi), heq⟩⟩
  · rintro ⟨hvalid, hnodup⟩ i entry
      ⟨d, fault, hd, -, hinvalid | ⟨-, -, earlier, hearlier, -, hname⟩⟩
    · exact (hvalid d (List.mem_of_getElem? hd)).not_invalid fault hinvalid
    · obtain ⟨j, hj, rfl⟩ := List.mem_take_iff_getElem.1 hearlier
      obtain ⟨hi, rfl⟩ := List.getElem?_eq_some_iff.1 hd
      have hlt : j < definitions.length := by omega
      refine List.pairwise_iff_getElem.1 hnodup j i ?_ ?_ (by omega) ?_ <;> simp [*]

/-- A definition and the phrase it is compiled to. -/
def Compiles (dialect : Regex.Dialect) (r : Registry) (d : PhraseDefinition) (phrase : Phrase) :
    Prop :=
  compilePhrase dialect r d = .ok phrase

theorem Compiles.isCompilation {phrase : Phrase} (h : Compiles dialect r d phrase) :
    IsCompilation dialect r d phrase := by
  rcases compilePhrase_cases dialect r d with ⟨fault, hfault, -⟩ | ⟨phrase', hphrase, -, hcompiled⟩
  · exact absurd (h.symm.trans hfault) nofun
  · obtain rfl := Except.ok.inj (h.symm.trans hphrase)
    exact hcompiled

/-- Where there are no faults, each definition has become a phrase. -/
theorem compiles_of_compilePhrases {names : List Text}
    {definitions : List PhraseDefinition} {phrases : List Phrase}
    (h : compilePhrases dialect r names definitions = (phrases, [])) :
    List.Forall₂ (Compiles dialect r) definitions phrases := by
  induction definitions generalizing names phrases with
  | nil =>
    obtain rfl : [] = phrases := congrArg Prod.fst h
    exact .nil
  | cons d rest ih =>
    unfold compilePhrases at h
    split at h
    · exact absurd (congrArg Prod.snd h) (List.cons_ne_nil _ _)
    · rename_i phrase hphrase
      split_ifs at h
      · exact absurd (congrArg Prod.snd h) (List.cons_ne_nil _ _)
      · obtain ⟨rfl, hfaults⟩ := Prod.mk.inj h
        exact .cons hphrase (ih (Prod.ext rfl hfaults))

end Phrases

/-! ### Books -/

/-- A book holds the types and phrases of its configuration. -/
theorem build_eq_ok (h : build? dialect (some config) = .ok book) :
    ∃ builtins, Registry.empty.registerBuiltins dialect = (builtins, none) ∧
      registerTypes dialect builtins config.types = (book.registry, []) ∧
      compilePhrases dialect book.registry [] config.phrases = (book.phrases, []) ∧
      book.caseSensitive = config.caseSensitive ∧ book.maxDepth = depthOf config := by
  simp only [build?, build] at h
  split at h
  · cases h
  · split at h
    · cases h
    · rename_i builtins hbuiltins
      split at h
      · cases h
      · rename_i registry htypes
        split at h
        · cases h
        · rename_i phrases hphrases
          obtain rfl := Except.ok.inj h
          exact ⟨builtins, hbuiltins, htypes, hphrases, rfl, rfl⟩

/-- A book is built from a configuration, and has its cases. -/
theorem cases_of_build? {given : Option Config} (h : build? dialect given = .ok book) :
    ∃ config, given = some config ∧ book.cases = config.cases := by
  cases given with
  | none => cases h
  | some config =>
    refine ⟨config, rfl, ?_⟩
    simp only [build?, build] at h
    split at h
    · cases h
    · split at h
      · cases h
      · split at h
        · cases h
        · split at h
          · cases h
          · obtain rfl := Except.ok.inj h
            rfl

/-- The built-in types can be compiled. -/
def BuiltinsCompile (dialect : Regex.Dialect) : Prop :=
  ∀ e ∈ Registry.builtins, ∃ finder, dialect.compile (Regex.whole e.spellings) = .ok finder

theorem registerBuiltins_eq (h : BuiltinsCompile dialect) :
    ∃ builtins, Registry.empty.registerBuiltins dialect = (builtins, none) := by
  have hname : ∀ e ∈ Registry.builtins, e.name ≠ [] := by decide
  have hnodup : (Registry.builtins.map Registry.Entry.name).Nodup := by decide
  have hnone : (Registry.empty.registerBuiltins dialect).2 = none :=
    Registry.registerAll_eq_none hname (fun _ _ => List.not_mem_nil) hnodup h
  exact ⟨_, Prod.ext rfl hnone⟩

theorem checkTimeout_eq_ok {text : Text} (h : text = [] ∨ ∃ d, Duration.ofText text = .ok d) :
    checkTimeout text = .ok () := by
  unfold checkTimeout
  split_ifs with hempty
  · rfl
  · rcases h with rfl | ⟨d, hd⟩
    · exact absurd rfl hempty
    · rw [hd]

/-- **What building comes to**, once the time for regular expressions and the built-in types are
fine: the faults of types go before those of phrases, and without faults there is a book. -/
theorem build?_of_faults {builtins registry : Registry} {phrases : List Phrase}
    {typeFaults : List (Text × TypeFault)} {phraseFaults : List (Text × PhraseFault)}
    (hbuiltins : Registry.empty.registerBuiltins dialect = (builtins, none))
    (htimeout : checkTimeout config.regexTimeout = .ok ())
    (htypes : registerTypes dialect builtins config.types = (registry, typeFaults))
    (hphrases : compilePhrases dialect registry [] config.phrases = (phrases, phraseFaults)) :
    (typeFaults ≠ [] → build? dialect (some config) = .error (.types typeFaults)) ∧
      (typeFaults = [] → phraseFaults ≠ [] →
        build? dialect (some config) = .error (.phrases phraseFaults)) ∧
      (typeFaults = [] → phraseFaults = [] → ∃ book, build? dialect (some config) = .ok book) := by
  simp only [build?, build, htimeout, hbuiltins, htypes]
  cases typeFaults with
  | cons fault faults => exact ⟨fun _ => rfl, nofun, nofun⟩
  | nil =>
    simp only [hphrases]
    cases phraseFaults with
    | cons fault faults => exact ⟨fun h => absurd rfl h, fun _ _ => rfl, nofun⟩
    | nil => exact ⟨fun h => absurd rfl h, fun _ h => absurd rfl h, fun _ _ => ⟨_, rfl⟩⟩

/-- All types can be registered, each after those before it. -/
def AllRegister (dialect : Regex.Dialect) (r : Registry) (definitions : List TypeDefinition) : Prop :=
  ∀ before d after, definitions = before ++ d :: after →
    ∃ r', registerType dialect (registryAfter dialect r before) d = .ok r'

theorem allRegister_iff {r : Registry} {definitions : List TypeDefinition} :
    AllRegister dialect r definitions ↔
      ∀ i entry, ¬ TypeFaultAt dialect r definitions i entry := by
  constructor
  · rintro hall i entry ⟨d, fault, hd, -, hfault⟩
    obtain ⟨hi, rfl⟩ := List.getElem?_eq_some_iff.1 hd
    obtain ⟨r', hr'⟩ := hall (definitions.take i) definitions[i] (definitions.drop (i + 1))
      (by rw [List.getElem_cons_drop, List.take_append_drop])
    exact absurd (hr'.symm.trans hfault) nofun
  · rintro hnone before d after rfl
    cases hd : registerType dialect (registryAfter dialect r before) d with
    | ok r' => exact ⟨r', rfl⟩
    | error fault =>
      exact absurd ⟨d, fault, by simp, rfl, by simpa using hd⟩ (hnone before.length (d.name, fault))

/-- **A book is built of all definitions or not at all**, and then every fault is reported: all faulty
types in their order, or else all faulty phrases in theirs. -/
theorem build_all_or_nothing (hbuiltins : BuiltinsCompile dialect)
    (htimeout : config.regexTimeout = [] ∨ ∃ d, Duration.ofText config.regexTimeout = .ok d) :
    ∃ builtins registry typeFaults phraseFaults,
      Registry.empty.registerBuiltins dialect = (builtins, none) ∧
      registry = registryAfter dialect builtins config.types ∧
      ListsAll (TypeFaultAt dialect builtins config.types) typeFaults ∧
      ListsAll (PhraseFaultAt dialect registry config.phrases) phraseFaults ∧
      (typeFaults ≠ [] → build? dialect (some config) = .error (.types typeFaults)) ∧
      (typeFaults = [] → phraseFaults ≠ [] →
        build? dialect (some config) = .error (.phrases phraseFaults)) ∧
      (typeFaults = [] → phraseFaults = [] → ∃ book, build? dialect (some config) = .ok book) ∧
      ((∃ book, build? dialect (some config) = .ok book) ↔
        AllRegister dialect builtins config.types ∧ (∀ d ∈ config.phrases, Valid dialect registry d) ∧
          (config.phrases.map PhraseDefinition.name).Nodup) ∧
      ∀ book, build? dialect (some config) = .ok book → book.registry = registry ∧
        List.Forall₂ (IsCompilation dialect registry) config.phrases book.phrases := by
  obtain ⟨builtins, hbuiltins⟩ := registerBuiltins_eq hbuiltins
  have htimeout := checkTimeout_eq_ok htimeout
  obtain ⟨hregistry, htypes⟩ := listsAll_registerTypes dialect builtins config.types
  have hphrases := listsAll_compilePhrases dialect (registryAfter dialect builtins config.types)
    config.phrases
  obtain ⟨htypeFaults, hphraseFaults, hbook⟩ :=
    build?_of_faults hbuiltins htimeout (Prod.ext hregistry rfl) rfl
  refine ⟨builtins, _, _, _, hbuiltins, rfl, htypes, hphrases, htypeFaults, hphraseFaults, hbook,
    ?_, fun book hok => ?_⟩
  · rw [allRegister_iff, ← forall_not_phraseFaultAt_iff, ← htypes.eq_nil_iff, ← hphrases.eq_nil_iff]
    constructor
    · rintro ⟨book, hok⟩
      have htypesNil : (registerTypes dialect builtins config.types).2 = [] := by
        by_contra hne
        exact absurd (hok.symm.trans (htypeFaults hne)) nofun
      refine ⟨htypesNil, ?_⟩
      by_contra hne
      exact absurd (hok.symm.trans (hphraseFaults htypesNil hne)) nofun
    · rintro ⟨htypesNil, hphrasesNil⟩
      exact hbook htypesNil hphrasesNil
  · obtain ⟨builtins', hbuiltins', htypes', hphrases', -⟩ := build_eq_ok hok
    obtain ⟨rfl, -⟩ := Prod.mk.inj (hbuiltins.symm.trans hbuiltins')
    have hbookRegistry : book.registry = registryAfter dialect builtins config.types := by
      rw [← hregistry, htypes']
    refine ⟨hbookRegistry, hbookRegistry ▸ ?_⟩
    exact (compiles_of_compilePhrases hphrases').imp fun _ _ => Compiles.isCompilation

/-- Orders for a kitchen, of which only the second can be used. -/
def orders : Config where
  regexTimeout := Text.ofString "2s"
  phrases := [
    ⟨Text.ofString "eat", Text.ofString "effect", [],
      [Text.ofString "eat %fruit%", Text.ofString "eat", Text.ofString "eat (now"]⟩,
    ⟨Text.ofString "drink", Text.ofString "effect", [], [Text.ofString "drink [it]"]⟩,
    ⟨Text.ofString "drink", Text.ofString "effect", [], [Text.ofString "sip"]⟩,
    ⟨[], Text.ofString "effect", [], [Text.ofString "wait"]⟩]

theorem build_all_or_nothing_orders :
    ∃ registry faults,
      ListsAll (PhraseFaultAt Regex.backtracking registry orders.phrases) faults ∧
      build? Regex.backtracking (some orders) = .error (.phrases faults) ∧
      faults.map Prod.fst = [Text.ofString "eat", Text.ofString "drink", []] := by
  have hbuiltins : BuiltinsCompile Regex.backtracking := by
    have h : ∀ e ∈ Registry.builtins,
        (Regex.backtracking.compile (Regex.whole e.spellings)).toOption.isSome := by decide +kernel
    intro e he
    have he := h e he
    cases hfinder : Regex.backtracking.compile (Regex.whole e.spellings) with
    | ok finder => exact ⟨finder, rfl⟩
    | error reason => simp [hfinder, Except.toOption] at he
  have htimeout : ∃ d, Duration.ofText orders.regexTimeout = .ok d :=
    ⟨2000000000, by decide +kernel⟩
  have hnames : (match build? Regex.backtracking (some orders) with
      | .error (.phrases faults) => some (faults.map Prod.fst)
      | _ => none) = some [Text.ofString "eat", Text.ofString "drink", []] := by decide +kernel
  obtain ⟨builtins, registry, typeFaults, phraseFaults, -, -, -, hphrases, htypeFaults,
    hphraseFaults, hbook, -, -⟩ := build_all_or_nothing hbuiltins (.inr htimeout)
  by_cases htypesNil : typeFaults = []
  · by_cases hphrasesNil : phraseFaults = []
    · obtain ⟨book, hbook⟩ := hbook htypesNil hphrasesNil
      simp [hbook] at hnames
    · have hbuild := hphraseFaults htypesNil hphrasesNil
      refine ⟨registry, phraseFaults, hphrases, hbuild, ?_⟩
      simpa [hbuild] using hnames
  · simp [htypeFaults htypesNil] at hnames

end Book

end Phrasebook
