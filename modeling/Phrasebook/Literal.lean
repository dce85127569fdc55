import Phrasebook.Literal.Items
import Phrasebook.Registry

/-!
# Constants in an input

A literal is a constant of a type, or a list of them where a type reference is plural. The first of
the accepted types that reads the text wins; the whole text as one constant is tried before it is
taken as a list.
-/

namespace Phrasebook

/-- A constant, or a list of constants, written in an input. -/
structure Literal where
  /-- Its type. -/
  type : ValueType
  /-- Its values, one for each item. -/
  values : List Scalar
  /-- Whether all values are meant rather than any. -/
  isAnd : Bool
  /-- The text it was read from. -/
  text : Text

namespace Literal

/-- Whether the literal has a single value. -/
def isSingle (l : Literal) : Bool :=
  l.values.length == 1

/-- The values as reports show them: a single one by itself, several in brackets. -/
def describe (l : Literal) : Text :=
  match l.values with
  | [value] => value.toText
  | values => Scalar.listText values

/-- Reads each text in a form; fails when one of them is no constant. -/
def readEach (form : LiteralForm) : List Text → Option (List Scalar)
  | [] => some []
  | t :: rest =>
    match form.read t with
    | none => none
    | some value => (readEach form rest).map (value :: ·)

/-- Reads a text as a list of at least two constants. -/
def readList (form : LiteralForm) (text : Text) : Option (List Scalar × Bool) :=
  match splitItems text with
  | none => none
  | some parts =>
    if parts.items.length < 2 then none
    else (readEach form parts.items).map (·, parts.isAnd)

/-- Reads a text as a literal of the type that a reference means. -/
def readAs (ref : TypeRef) (text : Text) : Option Literal :=
  match ref.type with
  | none => none
  | some type =>
    match type.literal with
    | none => none
    | some form =>
      match form.read text with
      | some value => some ⟨type, [value], true, text⟩
      | none =>
        if ref.single then none
        else (readList form text).map fun (values, isAnd) => ⟨type, values, isAnd, text⟩

/-- Reads a text as a literal of the first accepted type that takes it. -/
def read (text : Text) (accepted : List TypeRef) : Option Literal :=
  accepted.findSome? (readAs · text)

end Literal

end Phrasebook
