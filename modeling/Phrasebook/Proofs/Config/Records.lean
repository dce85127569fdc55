import Mathlib.Data.List.Basic
import Phrasebook.Config.Record
import Phrasebook.Proofs.Text.Utf8

/-!
# Configurations read back from their records

A field that is empty may be left out of a record, and a field that is left out is read as empty.
For texts, numbers and lists of definitions this is the same.  For the values that a case asks for
it is not: a list without items is left out, and is read as no list at all.

* `Record.get?_append`, `Record.get?_one`, `Record.get?_oneIf` : what a field of a record holds.
* `TypeDefinition.ofRecord_toRecord`, `PhraseDefinition.ofRecord_toRecord` : definitions are read
  back as they were written.
* `Case.reread` : what is left of a case.
* `Config.ofRecord_toRecord` : **a configuration is read back but for its cases**, each of which
  is read back as what is left of it.
-/

namespace Phrasebook

theorem Text.ofString_inj {s t : String} : Text.ofString s = Text.ofString t ↔ s = t := by
  constructor
  · intro h
    have hchars := congrArg Text.chars h
    rw [Text.ofString, Text.ofString, Text.chars_ofChars, Text.chars_ofChars] at hchars
    exact String.toList_inj.1 hchars
  · rintro rfl
    rfl

namespace Record

variable (r s : Record) (condition : Bool) (name other : String) (item : Item)

/-! ### Fields -/

theorem get?_append : Record.get? (r ++ s) name = (r.get? name).or (s.get? name) :=
  List.lookup_append

theorem get?_one : (one name item).get? other = if other = name then some item else none := by
  rw [one, get?, List.lookup_cons, List.lookup_nil]
  by_cases h : other = name
  · subst h
    simp
  · rw [beq_false_of_ne (Text.ofString_inj.not.2 h), if_neg h]

theorem get?_oneIf : (oneIf condition name item).get? other =
    if condition ∧ other = name then some item else none := by
  cases condition with
  | true => simp [oneIf, get?_one]
  | false => rfl

end Record

namespace Item

theorem filterMap_text? (ts : List Text) : (ts.map text).filterMap text? = ts := by
  rw [List.filterMap_map]
  exact List.filterMap_some

theorem filterMap_record? {α : Type} (toRecord : α → Record) (ds : List α) :
    (ds.map fun d => record (toRecord d)).filterMap record? = ds.map toRecord := by
  rw [List.filterMap_map]
  exact congrFun List.filterMap_eq_map ds

/-! A field that is left out when it is empty is read as it was. -/

theorem getD_text (t : Text) :
    ((if (!t.isEmpty) = true then some (text t) else none).bind text?).getD [] = t := by
  cases t <;> rfl

theorem getD_texts (ts : List Text) :
    (((if (!ts.isEmpty) = true then some (list (ts.map text)) else none).bind list?).map
      (·.filterMap text?)).getD [] = ts := by
  cases ts with
  | nil => rfl
  | cons t ts => exact filterMap_text? (t :: ts)

theorem map_records {α : Type} (toRecord : α → Record) (ofRecord : Record → α) (ds : List α) :
    ((((if (!ds.isEmpty) = true then some (list (ds.map fun d => record (toRecord d)))
      else none).bind list?).getD []).filterMap record?).map ofRecord =
      ds.map fun d => ofRecord (toRecord d) := by
  cases ds with
  | nil => rfl
  | cons d ds =>
    change (((d :: ds).map fun d => record (toRecord d)).filterMap record?).map ofRecord = _
    rw [filterMap_record?, List.map_map]
    rfl

/-! Whether values are the same can be computed. -/

mutual

/-- Whether two values are the same. -/
def same : Item → Item → Bool
  | .text s, .text t => s == t
  | .integer m, .integer n => m == n
  | .boolean a, .boolean b => a == b
  | .list xs, .list ys => sameItems xs ys
  | .record r, .record s => sameFields r s
  | _, _ => false

/-- Whether two lists have the same values. -/
def sameItems : List Item → List Item → Bool
  | [], [] => true
  | x :: xs, y :: ys => same x y && sameItems xs ys
  | _, _ => false

/-- Whether two records have the same fields in the same order. -/
def sameFields : List (Text × Item) → List (Text × Item) → Bool
  | [], [] => true
  | (name, x) :: r, (other, y) :: s => name == other && same x y && sameFields r s
  | _, _ => false

end

mutual

theorem eq_of_same {x y : Item} (h : same x y) : x = y := by
  match x with
  | .text _ | .integer _ | .boolean _ => cases y <;> simp_all [same]
  | .list xs =>
    cases y <;> simp only [same, Bool.false_eq_true] at h
    rw [eq_of_sameItems h]
  | .record r =>
    cases y <;> simp only [same, Bool.false_eq_true] at h
    rw [eq_of_sameFields h]

theorem eq_of_sameItems {xs ys : List Item} (h : sameItems xs ys) : xs = ys := by
  match xs, ys with
  | [], [] => rfl
  | x :: xs, y :: ys =>
    simp only [sameItems, Bool.and_eq_true] at h
    rw [eq_of_same h.1, eq_of_sameItems h.2]

theorem eq_of_sameFields {r s : List (Text × Item)} (h : sameFields r s) : r = s := by
  match r, s with
  | [], [] => rfl
  | (name, x) :: r, (other, y) :: s =>
    simp only [sameFields, Bool.and_eq_true, beq_iff_eq] at h
    rw [h.1.1, eq_of_same h.1.2, eq_of_sameFields h.2]

end

end Item

/-! ### Definitions -/

section Definitions

open Record Item

theorem TypeDefinition.ofRecord_toRecord (d : TypeDefinition) : ofRecord d.toRecord = d := by
  simp only [ofRecord, toRecord, Record.text, texts?, get?_append, get?_one, get?_oneIf,
    String.reduceEq, ↓reduceIte, and_true, and_false, Option.none_or, Option.or_none, getD_text,
    getD_texts, Option.bind_some, text?, Option.getD_some]

theorem PhraseDefinition.ofRecord_toRecord (d : PhraseDefinition) : ofRecord d.toRecord = d := by
  simp only [ofRecord, toRecord, Record.text, texts?, get?_append, get?_one, get?_oneIf,
    String.reduceEq, ↓reduceIte, and_true, and_false, Option.none_or, Option.or_none, getD_text,
    Option.bind_some, text?, Option.getD_some, list?, Option.map_some, filterMap_text?]

/-- What is left of a case that is read back: a list of no values is left out. -/
def Case.reread (c : Case) : Case :=
  { c with values := if c.values = some [] then none else c.values }

theorem Case.ofRecord_toRecord (c : Case) : ofRecord c.toRecord = c.reread := by
  have hmark : (if c.mark.isSome = true then some (integer (c.mark.getD 0)) else none).bind
      Item.integer? = c.mark := by
    cases c.mark <;> rfl
  have hvalues : ((if (!(c.values.getD []).isEmpty) = true then
      some (list ((c.values.getD []).map Item.text)) else none).bind list?).map
      (·.filterMap text?) = if c.values = some [] then none else c.values := by
    cases c.values with
    | none => rfl
    | some values =>
      cases values with
      | nil => rfl
      | cons v values => exact congrArg some (filterMap_text? (v :: values))
  simp only [ofRecord, toRecord, Record.text, Record.integer?, texts?, get?_append, get?_one,
    get?_oneIf, String.reduceEq, ↓reduceIte, and_true, and_false, Option.none_or, Option.or_none,
    getD_text, Option.bind_some, text?, Option.getD_some, hmark, hvalues, reread]

/-- A configuration is read back but for what is left of its cases. -/
theorem Config.ofRecord_toRecord (c : Config) :
    ofRecord c.toRecord = { c with cases := c.cases.map Case.reread } := by
  have hsensitive : ((if c.caseSensitive = true then some (boolean true) else none).bind
      boolean?).getD false = c.caseSensitive := by
    cases c.caseSensitive <;> rfl
  have hdepth : ((if (c.maxDepth != 0) = true then some (integer c.maxDepth) else none).bind
      Item.integer?).getD 0 = c.maxDepth := by
    by_cases h : c.maxDepth = 0
    · rw [h]
      rfl
    · rw [if_pos (bne_iff_ne.2 h)]
      rfl
  have htypes : c.types.map (fun d => TypeDefinition.ofRecord d.toRecord) = c.types := by
    simp only [TypeDefinition.ofRecord_toRecord, List.map_id']
  have hphrases : (c.phrases.map PhraseDefinition.toRecord).map PhraseDefinition.ofRecord =
      c.phrases := by
    simp only [List.map_map, Function.comp_def, PhraseDefinition.ofRecord_toRecord, List.map_id']
  have hcases : c.cases.map (fun d => Case.ofRecord d.toRecord) = c.cases.map Case.reread := by
    simp only [Case.ofRecord_toRecord]
  simp only [ofRecord, toRecord, Record.text, Record.isTrue, Record.integer?, records, get?_append,
    get?_one, get?_oneIf, String.reduceEq, ↓reduceIte, and_true, and_false, Option.none_or,
    Option.or_none, getD_text, Option.bind_some, text?, Option.getD_some, hsensitive, hdepth,
    map_records, list?, filterMap_record?, htypes, hphrases, hcases]

theorem Config.ofRecord_congr {r s : Record} (h : ∀ name, r.lookup name = s.lookup name) :
    ofRecord r = ofRecord s := by
  have hget : r.get? = s.get? := funext fun name => h (Text.ofString name)
  simp only [ofRecord, Record.text, Record.isTrue, Record.integer?, records, hget]

end Definitions

end Phrasebook
