import Phrasebook.Number.Integer
import Phrasebook.Record
import Phrasebook.Toml.Defined
import Phrasebook.Toml.Expression.Reader
import Phrasebook.Toml.Moment

/-!
# Reading a record from expressions

The expressions of a document are taken in order, and each sets fields of the record. Names are those
of fields as they are or in lower case. What belongs to no field is passed over; a value of the wrong
kind is a fault. There is no field for dates, so a well-formed date where a field is set cannot be
stored at all, and neither can a table within something that has no fields.
-/

namespace Phrasebook

namespace Toml

/-- Why a document cannot be read. -/
inductive Fault where
  /-- It is malformed, or does not fit the record. -/
  | malformed
  /-- It has something there is no way to store. -/
  | unstorable
  deriving DecidableEq, Repr

/-! ### Values -/

/-- An integer without the underscores that stand between its digits. -/
def dropUnderscores? (t : Text) : Option Text :=
  let digits := match t with
    | 0x2B :: rest => rest
    | 0x2D :: rest => rest
    | _ => t
  let pieces := Text.splitOn 0x5F digits
  if digits.isEmpty ∨ pieces.all (!·.isEmpty) then some (t.filter (· != 0x5F)) else none

/-- The value of an integer as it is written. A decimal integer has no zeros in front. -/
def integer? (t : Text) : Option Int :=
  let based (base : Nat) (digits : Text) : Option Int :=
    match (dropUnderscores? digits).bind (Integer.digits? base) with
    | some n => if Integer.fits n then some (n : Int) else none
    | none => none
  match t with
  | 0x30 :: 0x78 :: d :: rest => based 16 (d :: rest)
  | 0x30 :: 0x6F :: d :: rest => based 8 (d :: rest)
  | 0x30 :: 0x62 :: d :: rest => based 2 (d :: rest)
  | _ =>
    match dropUnderscores? t with
    | none => none
    | some cleaned =>
      let isLong : Bool := match cleaned with
        | 0x2B :: 0x30 :: _ :: _ => true
        | 0x2D :: 0x30 :: _ :: _ => true
        | 0x30 :: _ :: _ => true
        | _ => false
      if isLong then none
      else
        match Integer.signed? (Integer.digits? 10) cleaned with
        | some n => if Integer.fits n then some n else none
        | none => none

/-- The field that a name means, as it is or in lower case. -/
def field? (shapes : List (Text × Shape)) (name : Text) : Option (Text × Shape) :=
  let named (n : Text) : Option (Text × Shape) := shapes.find? fun field => field.1 == n
  named name <|> named name.lower

/-- Sets a field of a record. -/
def set (name : Text) (item : Item) : Record → Record
  | [] => [(name, item)]
  | (other, old) :: rest =>
    if other = name then (other, item) :: rest else (other, old) :: set name item rest

/-- Sets what a key leads to in a record, by a function of its shape. -/
def setKey (read : Shape → Except Fault Item) :
    Key → List (Text × Shape) → Record → Except Fault Record
  | [], _, r => .ok r
  | name :: rest, shapes, r =>
    match field? shapes name with
    | none => .ok r
    | some (name, shape) =>
      if rest.isEmpty then (read shape).map fun item => set name item r
      else
        match shape with
        | .record shapes =>
          let inner := ((r.lookup name).bind Item.record?).getD []
          (setKey read rest shapes inner).map fun inner => set name (.record inner) r
        | _ => .error .malformed

mutual

/-- The item of a shape that a value holds. -/
def Value.item : Value → Shape → Except Fault Item
  | .text t, .text => .ok (.text t)
  | .boolean b, .boolean => .ok (.boolean b)
  | .integer written, .integer =>
    match integer? written with
    | some n => .ok (.integer n)
    | none => .error .malformed
  | .array values, .list shape => (items values shape).map .list
  | .table entries, .record shapes => (fields entries shapes []).map .record
  | .moment form written, _ =>
    .error (if form.accepts written then .unstorable else .malformed)
  | _, _ => .error .malformed

/-- The items of a shape that values hold. -/
def items : List Value → Shape → Except Fault (List Item)
  | [], _ => .ok []
  | value :: rest, shape =>
    match value.item shape with
    | .ok item => (items rest shape).map (item :: ·)
    | .error e => .error e

/-- Sets the fields that entries name. -/
def fields : List (Key × Value) → List (Text × Shape) → Record → Except Fault Record
  | [], _, r => .ok r
  | (key, value) :: rest, shapes, r =>
    match setKey value.item key shapes r with
    | .ok r => fields rest shapes r
    | .error e => .error e

end

/-! ### Tables -/

/-- An item of a shape with nothing in it. -/
def blank : Shape → Item
  | .text => .text []
  | .integer => .integer 0
  | .boolean => .boolean false
  | .list _ => .list []
  | .record _ => .record []

/-- Where entries are set: the fields that lead there, lists standing for their last item, and the
shape of what is there. -/
structure Place where
  /-- The names of the fields. -/
  path : List Text
  /-- The shape. -/
  shape : Shape

/-- The items of a field that is a list. -/
def listOf (item : Option Item) : List Item :=
  (item.bind Item.list?).getD []

/-- The last item of a list and its shape, or the item itself if it is no list; `none` for a list
without items. -/
def lastOf : Shape → Option Item → Option (Shape × Option Item)
  | .list shape, item =>
    match (listOf item).getLast? with
    | some last => lastOf shape (some last)
    | none => none
  | shape, item => some (shape, item)

/-- The place that the key of a table leads to; `none` if it belongs to no field. -/
def tablePlace : Key → Shape → Option Item → Except Fault (Option Place)
  | key, shape, item =>
    match lastOf shape item with
    | none => .error .malformed
    | some (shape, item) =>
      match key with
      | [] => .ok (some ⟨[], shape⟩)
      | name :: rest =>
        match shape with
        | .record shapes =>
          match field? shapes name with
          | none => .ok none
          | some (name, shape) =>
            match tablePlace rest shape ((item.bind Item.record?).bind (·.lookup name)) with
            | .ok place => .ok (place.map fun p => { p with path := name :: p.path })
            | .error e => .error e
        | _ => .error .unstorable

/-- Changes the last item of a list. -/
def onLast (f : Item → Except Fault Item) (items : List Item) : Except Fault (List Item) :=
  match items.getLast? with
  | some last => (f last).map fun last => items.dropLast ++ [last]
  | none => .error .unstorable

/-- Adds an item to the list that the key of an array of tables leads to, after clearing the list if
`isFirst` says so. Gives the changed item and the place of the new one, which is `none` if the key
belongs to no field. -/
def addTable (isFirst : Bool) : Key → Shape → Item → Except Fault (Item × Option Place)
  | [], shape, item => .ok (item, some ⟨[], shape⟩)
  | name :: rest, shape, item =>
    match shape, item with
    | .record shapes, .record r =>
      match field? shapes name with
      | none => .ok (item, none)
      | some (name, shape) =>
        let old := listOf (r.lookup name)
        let found (changed : Item) (place : Option Place) : Item × Option Place :=
          (.record (set name changed r), place.map fun p => { p with path := name :: p.path })
        match rest, shape with
        | [], .list shape =>
          let kept := if isFirst then [] else old
          .ok (found (.list (kept ++ [blank shape])) (some ⟨[], shape⟩))
        | [], _ => .error .malformed
        | _, .list shape =>
          match old.getLast? with
          | some last =>
            match addTable isFirst rest shape last with
            | .ok (changed, place) => .ok (found (.list (old.dropLast ++ [changed])) place)
            | .error e => .error e
          | none => .error .unstorable
        | _, shape =>
          match addTable isFirst rest shape ((r.lookup name).getD (blank shape)) with
          | .ok (changed, place) => .ok (found changed place)
          | .error e => .error e
    | _, _ => .error .unstorable

/-- Changes the record that a path leads to. -/
def modifyAt (f : Record → Except Fault Record) : List Text → Record → Except Fault Record
  | [], r => f r
  | name :: rest, r =>
    let change (item : Item) : Except Fault Item :=
      match item with
      | .record inner => (modifyAt f rest inner).map .record
      | _ => .error .malformed
    match r.lookup name with
    | some (.list items) => (onLast change items).map fun items => set name (.list items) r
    | some item => (change item).map fun item => set name item r
    | none => .error .malformed

/-! ### Documents -/

/-- The state of reading a document. -/
structure Progress where
  /-- The record so far. -/
  record : Record := []
  /-- Where entries are set; `none` where they belong to no field. -/
  place : Option Place
  /-- The keys defined so far. -/
  defined : Definitions := {}

/-- Takes an expression. Entries of a table that belongs to no field are not looked at. -/
def Progress.take (shapes : List (Text × Shape)) (s : Progress) :
    Expression → Except Fault Progress
  | .entry key value =>
    match s.place with
    | none => .ok s
    | some place =>
      match s.defined.addEntry key value, place.shape with
      | some defined, .record inner =>
        match modifyAt (setKey value.item key inner) place.path s.record with
        | .ok r => .ok { s with record := r, defined := defined }
        | .error e => .error e
      | _, _ => .error .malformed
  | .table key =>
    match s.defined.addHeader false key with
    | none => .error .malformed
    | some defined =>
      match tablePlace key (.record shapes) (some (.record s.record)) with
      | .ok place => .ok { s with place := place, defined := defined }
      | .error e => .error e
  | .arrayTable key =>
    match s.defined.addHeader true key with
    | none => .error .malformed
    | some defined =>
      let isFirst := !s.defined.root.contains key
      match addTable isFirst key (.record shapes) (.record s.record) with
      | .ok (.record r, place) => .ok ⟨r, place, defined⟩
      | .ok _ => .error .malformed
      | .error e => .error e

/-- The record that a document holds. -/
def record (shapes : List (Text × Shape)) (t : Text) : Except Fault Record :=
  let document := Document.ofText t
  match document.expressions.foldlM (Progress.take shapes) { place := some ⟨[], .record shapes⟩ } with
  | .error e => .error e
  | .ok s => if document.isComplete then .ok s.record else .error .malformed

end Toml

end Phrasebook
