import Phrasebook.Text

/-!
# Records

What definition files hold, whatever their format: texts, integers, truth values, lists and records
of named fields. A shape says which fields a record may have and what each of them holds; the reader
of a format is asked for a value of a shape.
-/

namespace Phrasebook

/-- A value in a definition file. -/
inductive Item where
  /-- A text. -/
  | text (t : Text)
  /-- An integer. -/
  | integer (n : Int)
  /-- A truth value. -/
  | boolean (b : Bool)
  /-- A list of values. -/
  | list (items : List Item)
  /-- Named fields, in order. -/
  | record (fields : List (Text × Item))
  deriving Repr

/-- Named fields with their values, in order. -/
abbrev Record := List (Text × Item)

/-- What a value has to be. -/
inductive Shape where
  /-- A text. -/
  | text
  /-- An integer. -/
  | integer
  /-- A truth value. -/
  | boolean
  /-- A list of values of a shape. -/
  | list (item : Shape)
  /-- A record of named fields. -/
  | record (fields : List (Text × Shape))
  deriving Repr

namespace Item

/-- The text of a value that is one. -/
def text? : Item → Option Text
  | .text t => some t
  | _ => none

/-- The integer of a value that is one. -/
def integer? : Item → Option Int
  | .integer n => some n
  | _ => none

/-- The truth value of a value that is one. -/
def boolean? : Item → Option Bool
  | .boolean b => some b
  | _ => none

/-- The items of a value that is a list. -/
def list? : Item → Option (List Item)
  | .list items => some items
  | _ => none

/-- The fields of a value that is a record. -/
def record? : Item → Option Record
  | .record fields => some fields
  | _ => none

end Item

namespace Record

/-- The value of a field. -/
def get? (r : Record) (name : String) : Option Item :=
  r.lookup (Text.ofString name)

/-- The text of a field, empty when it is not set. -/
def text (r : Record) (name : String) : Text :=
  ((r.get? name).bind Item.text?).getD []

/-- The integer of a field, if it is set. -/
def integer? (r : Record) (name : String) : Option Int :=
  (r.get? name).bind Item.integer?

/-- Whether a field is set to true. -/
def isTrue (r : Record) (name : String) : Bool :=
  ((r.get? name).bind Item.boolean?).getD false

/-- The texts of a field that is a list of them, if it is set. -/
def texts? (r : Record) (name : String) : Option (List Text) :=
  ((r.get? name).bind Item.list?).map (·.filterMap Item.text?)

/-- The records of a field that is a list of them. -/
def records (r : Record) (name : String) : List Record :=
  (((r.get? name).bind Item.list?).getD []).filterMap Item.record?

/-- A field that is always written. -/
def one (name : String) (item : Item) : Record :=
  [(Text.ofString name, item)]

/-- A field that is written only if a condition holds. -/
def oneIf (condition : Bool) (name : String) (item : Item) : Record :=
  if condition then one name item else []

end Record

end Phrasebook
