import Mathlib.Data.List.Forall2
import Phrasebook.Book.Check
import Phrasebook.Config.Encoding
import Phrasebook.Proofs.Config.Records

/-!
# Cases of configurations that are saved and loaded

A case passes when what its input parses as meets it.  Of a case that is saved and loaded everything
is left but a list of no values, which asks for a parse without values; the case that is loaded does
not ask for any.

* `Case.Meets`, `Book.passed_iff_meets` : what a case asks for, and that it passes when that is met.
* `Config.Encoding.ReadsBack` : what is relied on of an encoding.
* `Config.Encoding.decode_encode` : a configuration that is saved is loaded but for what is left of
  its cases.
* `Config.passed_iff_of_decode_encode` : **a case means the same once it is saved and loaded, unless
  it asks for no values where values are found.**
-/

namespace Phrasebook

/-- What a case asks of the parse of its input. -/
def Case.Meets (c : Case) : Option Parse → Prop
  | none => c.expect = []
  | some p => c.expect ≠ [] ∧ p.phrase.name = c.expect ∧
      (∀ mark ∈ c.mark, p.outcome.mark.toInt = mark) ∧
      ∀ values ∈ c.values, p.outcome.describeValues = values

namespace Book

theorem markReason_eq_none_iff {c : Case} {p : Parse} :
    markReason c p = none ↔ ∀ mark ∈ c.mark, p.outcome.mark.toInt = mark := by
  unfold markReason
  cases c.mark with
  | none => simp
  | some mark => simp

theorem markReason_ne_nil {c : Case} {p : Parse} : markReason c p ≠ some [] := by
  have hword : Text.ofString "mark " ≠ [] := by decide
  unfold markReason
  cases c.mark with
  | none => nofun
  | some mark =>
    simp only
    split_ifs
    · nofun
    · simp [hword]

theorem getD_valuesReason_eq_nil_iff {c : Case} {p : Parse} :
    (valuesReason c p).getD [] = [] ↔ ∀ values ∈ c.values, p.outcome.describeValues = values := by
  have hword : Text.ofString "values " ≠ [] := by decide
  unfold valuesReason
  cases c.values with
  | none => simp
  | some values =>
    simp only
    split_ifs with hfound
    · simp [hfound]
    · simp [hfound, hword]

theorem caseReason_eq_nil_iff {c : Case} {parse : Option Parse} :
    caseReason c parse = [] ↔ c.Meets parse := by
  have hparsed : Text.ofString "parsed as " ≠ [] := by decide
  have hnone : Text.ofString "no match, expected " ≠ [] := by decide
  unfold caseReason
  cases parse with
  | none =>
    by_cases hexpect : c.expect = []
    · simp [hexpect, Case.Meets]
    · simp [hexpect, hnone, Case.Meets]
  | some p =>
    by_cases hexpect : c.expect = []
    · simp [hexpect, hparsed, Case.Meets]
    by_cases hname : p.phrase.name = c.expect
    · cases hmark : markReason c p with
      | none =>
        have hmeets := markReason_eq_none_iff.1 hmark
        simp only [List.isEmpty_iff, hexpect, ↓reduceIte, hname, ne_eq, not_true, hmark,
          getD_valuesReason_eq_nil_iff, Case.Meets, not_false_eq_true, true_and]
        exact (and_iff_right hmeets).symm
      | some reason =>
        have hnil : reason ≠ [] := by
          rintro rfl
          exact markReason_ne_nil hmark
        have hmeets : ¬ ∀ mark ∈ c.mark, p.outcome.mark.toInt = mark := by
          rw [← markReason_eq_none_iff, hmark]
          nofun
        simp only [List.isEmpty_iff, hexpect, ↓reduceIte, hname, ne_eq, not_true, hmark, hnil,
          Case.Meets, hmeets, false_and, and_false]
    · simp [hexpect, hname, hparsed, Case.Meets]

/-- **A case passes** when the parse of its input meets it. -/
theorem passed_iff_meets {book : Book} {c : Case} :
    (book.runCase c).passed ↔ c.Meets (book.parse c.input) :=
  List.isEmpty_iff.trans caseReason_eq_nil_iff

end Book

/-- A case that asks for a parse without values, where the parse of its input has values and is else
what the case asks for. -/
structure Case.AsksForNoValues (c : Case) (book : Book) (p : Parse) : Prop where
  /-- It asks for a list of no values. -/
  values_eq : c.values = some []
  /-- The parse of its input. -/
  parse_eq : book.parse c.input = some p
  /-- All else is met. -/
  meets : c.reread.Meets (some p)
  /-- Values are found. -/
  found : p.outcome.describeValues ≠ []

/-- A case asks for what is left of it and, where it asks for no values, for none to be found. -/
theorem Case.meets_iff_reread {c : Case} {parse : Option Parse} :
    c.Meets parse ↔ c.reread.Meets parse ∧
      ∀ p ∈ parse, c.values = some [] → p.outcome.describeValues = [] := by
  cases parse with
  | none => simp [Meets, reread]
  | some p =>
    by_cases hvalues : c.values = some []
    · simp [Meets, reread, hvalues, and_assoc]
    · simp [Meets, reread, hvalues]

theorem Book.passed_reread_iff (book : Book) (c : Case) :
    ((book.runCase c.reread).passed ↔ (book.runCase c).passed) ↔
      ¬ ∃ p, c.AsksForNoValues book p := by
  have hinput : c.reread.input = c.input := rfl
  rw [passed_iff_meets, passed_iff_meets, Case.meets_iff_reread (c := c), hinput, iff_self_and]
  constructor
  · rintro hkept ⟨p, h⟩
    have hmeets : c.reread.Meets (book.parse c.input) := by
      rw [h.parse_eq]
      exact h.meets
    exact h.found (hkept hmeets p h.parse_eq h.values_eq)
  · intro hnone hmeets p hp hvalues
    by_contra hfound
    rw [Option.mem_def.1 hp] at hmeets
    exact hnone ⟨p, hvalues, hp, hmeets, hfound⟩

namespace Config

namespace Encoding

variable {encoding : Encoding} {c : Config}

/-- What is relied on of an encoding: every field of the configuration that is written is read back
unchanged. -/
def ReadsBack (encoding : Encoding) (c : Config) : Prop :=
  ∃ r, encoding.read Config.fields (encoding.write c.toRecord) = .ok r ∧
    ∀ name, r.lookup name = c.toRecord.lookup name

/-- A configuration that is saved is loaded but for what is left of its cases. -/
theorem decode_encode (h : encoding.ReadsBack c) :
    encoding.decode (encoding.encode c) = .ok { c with cases := c.cases.map Case.reread } := by
  obtain ⟨r, hread, hfields⟩ := h
  rw [decode, encode, hread, ← ofRecord_toRecord, ← ofRecord_congr hfields]
  rfl

end Encoding

/-- **Saving and loading keeps what cases mean**, unless they ask for no values.  In every encoding
that reads back what it writes of a configuration, the cases are as many as before and in the same
order, and with every book each of them passes when it passed before, except where it asks for a
list of no values and its input has values but parses as it asks for. -/
theorem passed_iff_of_decode_encode {encoding : Encoding} {c : Config} (h : encoding.ReadsBack c) :
    ∃ d, encoding.decode (encoding.encode c) = .ok d ∧
      List.Forall₂ (fun saved loaded => ∀ book : Book,
        ((book.runCase loaded).passed ↔ (book.runCase saved).passed) ↔
          ¬ ∃ p, saved.AsksForNoValues book p) c.cases d.cases := by
  refine ⟨_, Encoding.decode_encode h, ?_⟩
  rw [List.forall₂_map_right_iff, List.forall₂_same]
  exact fun c _ book => book.passed_reread_iff c

/-- A case that asks for no values where its input has one. -/
def showFive : Case where
  input := Text.ofString "show 5"
  expect := Text.ofString "show"
  values := some []

/-- A phrase with a value, and the case. -/
def showConfig : Config where
  phrases :=
    [{ name := Text.ofString "show"
       kind := Text.ofString "effect"
       patterns := [Text.ofString "show %number%"] }]
  cases := [showFive]

theorem readsBack_showConfig : (Encoding.ofFormat .yaml).ReadsBack showConfig := by
  let written := (Encoding.ofFormat .yaml).write showConfig.toRecord
  have h : ((Encoding.ofFormat .yaml).read Config.fields written).toOption.any fun r =>
      Item.sameFields r showConfig.toRecord := by decide +kernel
  cases hread : (Encoding.ofFormat .yaml).read Config.fields written with
  | error e => simp [hread, Except.toOption] at h
  | ok r =>
    simp only [hread, Except.toOption, Option.any_some] at h
    exact ⟨r, hread, fun name => by rw [Item.eq_of_sameFields h]⟩

/-- `show 5` fails the case, and passes it once it is saved and loaded as YAML. -/
theorem not_passed_iff_showFive :
    ∃ book d loaded, Book.build? Regex.backtracking (some showConfig) = .ok book ∧
      (Encoding.ofFormat .yaml).ReadsBack showConfig ∧
      decode .yaml (encode .yaml showConfig) = .ok d ∧ d.cases = [loaded] ∧
      ¬ ((book.runCase loaded).passed ↔ (book.runCase showFive).passed) := by
  have h : ((Book.build? Regex.backtracking (some showConfig)).toOption.any fun book =>
      (book.parse showFive.input).any fun p =>
        decide (p.phrase.name = showFive.expect ∧ p.outcome.describeValues ≠ [])) := by
    decide +kernel
  cases hbuild : Book.build? Regex.backtracking (some showConfig) with
  | error reason => simp [hbuild, Except.toOption] at h
  | ok book =>
    simp only [hbuild, Except.toOption, Option.any_some, Option.any_eq_true,
      decide_eq_true_eq] at h
    obtain ⟨p, hparse, hname, hfound⟩ := h
    obtain ⟨d, hdecode, hcases⟩ := passed_iff_of_decode_encode readsBack_showConfig
    obtain ⟨loaded, others, hpassed, hothers, hloaded⟩ := List.forall₂_cons_left_iff.1 hcases
    rw [List.forall₂_nil_left_iff.1 hothers] at hloaded
    have hmeets : showFive.reread.Meets (some p) := ⟨by decide, hname, nofun, nofun⟩
    refine ⟨book, d, loaded, rfl, readsBack_showConfig, hdecode, hloaded,
      fun hsame => (hpassed book).1 hsame ⟨p, ?_⟩⟩
    exact ⟨rfl, hparse, hmeets, hfound⟩

end Config

end Phrasebook
