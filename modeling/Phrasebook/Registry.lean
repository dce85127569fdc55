import Phrasebook.Regex
import Phrasebook.Scalar
import Phrasebook.Text.Quoted

/-!
# Value types and their registry

Slots of a pattern refer to value types by name. A type has a name, the kind of its values, a
regular expression for the spellings of its name and, when its constants can be written, the form
they are written in. The registry keeps the types in the order they were first registered; a name
registered again with the same kind takes the place of its former entry.

A spelling is plural when the group named `plural` takes part in it. A type's own name is always a
singular spelling.
-/

namespace Phrasebook

/-- The kind of a type's values. -/
inductive Kind where
  /-- Numbers. -/
  | number
  /-- Integers. -/
  | integer
  /-- Strings. -/
  | string
  /-- Truth values. -/
  | boolean
  /-- Values of any sort. -/
  | any
  /-- Values of some other sort, by its name. -/
  | other (name : Text)
  deriving DecidableEq, Repr

namespace Kind

/-- The kind's name in messages. -/
def toText : Kind → Text
  | .number => Text.ofString "float64"
  | .integer => Text.ofString "int64"
  | .string => Text.ofString "string"
  | .boolean => Text.ofString "bool"
  | .any => Text.ofString "interface \x7b\x7d"
  | .other name => name

/-- The kind of what a form reads. -/
def ofForm : LiteralForm → Kind
  | .number => .number
  | .integer => .integer
  | .string => .string
  | .boolean => .boolean
  | .word _ => .string

end Kind

/-- The group that marks a spelling as plural. -/
def pluralGroup : Text := Text.ofString "plural"

/-- A value type. -/
structure ValueType where
  /-- Its name. -/
  name : Text
  /-- The kind of its values. -/
  kind : Kind
  /-- The regular expression for the spellings of its name. -/
  spellings : Text
  /-- What that expression finds in a text. -/
  finder : Regex.Finder
  /-- How its constants are written, if they can be. -/
  literal : Option LiteralForm

namespace ValueType

/-- Whether a text spells the type's name, and then whether it does so in the plural. -/
def spelling? (type : ValueType) (text : Text) : Option Bool :=
  (type.finder text).map (·.participates pluralGroup)

end ValueType

/-- A reference to a type inside a slot. -/
structure TypeRef where
  /-- The type, if there is one. -/
  type : Option ValueType
  /-- Whether a single value is meant. -/
  single : Bool

namespace TypeRef

/-- The name of the type. -/
def name? (r : TypeRef) : Option Text :=
  r.type.map ValueType.name

/-- Whether two references mean the same type, by name, in the same number. -/
def same (r s : TypeRef) : Bool :=
  r.single == s.single && r.name? == s.name?

/-- The reference in words. -/
def toText (r : TypeRef) : Text :=
  match r.type with
  | none => Text.ofString "<nil>"
  | some type => if r.single then type.name else type.name ++ Text.ofString "(plural)"

end TypeRef

/-- The registered types in the order of their first registration. -/
structure Registry where
  /-- The types. -/
  types : List ValueType

namespace Registry

/-- Why a type is refused. -/
inductive Error where
  /-- It has no name. -/
  | emptyName
  /-- The expression for its spellings is refused, for this reason. -/
  | invalidSpellings (source reason : Text)
  /-- The name is taken by a type of another kind. -/
  | kindConflict (name : Text) (former given : Kind)
  deriving DecidableEq, Repr

namespace Error

/-- The error in words. -/
def message : Error → Text
  | .emptyName => Text.ofString "type name is empty"
  | .invalidSpellings source reason =>
    Text.ofString "invalid type name pattern " ++ source.quoted ++ Text.ofString ": " ++ reason
  | .kindConflict name former given =>
    Text.ofString "type already registered with a different kind: " ++ name ++
      Text.ofString " is " ++ former.toText ++ Text.ofString ", not " ++ given.toText

end Error

/-- The registry without types. -/
def empty : Registry := ⟨[]⟩

/-- The type registered under a name. -/
def typeNamed? (r : Registry) (name : Text) : Option ValueType :=
  r.types.find? (·.name == name)

/-- The first type that a text spells. -/
def bySpelling? (r : Registry) (text : Text) : Option ValueType :=
  r.types.find? fun type => (type.spelling? text).isSome

/-- The type reference that a text makes: the type of this very name, singular, or else the first
type that the text spells. -/
def typeRef? (r : Registry) (text : Text) : Option TypeRef :=
  match r.typeNamed? text with
  | some type => some ⟨some type, true⟩
  | none =>
    r.types.findSome? fun type =>
      (type.spelling? text).map fun plural => ⟨some type, !plural⟩

/-- Puts a type in the place of the one of the same name. -/
def replace (r : Registry) (type : ValueType) : Registry :=
  ⟨r.types.map fun old => if old.name == type.name then type else old⟩

/-- Registers a type. -/
def register (dialect : Regex.Dialect) (r : Registry) (name : Text) (kind : Kind) (spellings : Text)
    (literal : Option LiteralForm) : Except Error (Registry × ValueType) :=
  if name.isEmpty then .error .emptyName
  else
    match dialect.compile (Regex.whole spellings) with
    | .error reason => .error (.invalidSpellings spellings reason)
    | .ok finder =>
      let type : ValueType := ⟨name, kind, spellings, finder, literal⟩
      match r.typeNamed? name with
      | none => .ok (⟨r.types ++ [type]⟩, type)
      | some former =>
        if former.kind = kind then .ok (r.replace type, type)
        else .error (.kindConflict name former.kind kind)

/-- A type to be registered. -/
structure Entry where
  /-- Its name. -/
  name : Text
  /-- The expression for its spellings. -/
  spellings : Text
  /-- How its constants are written. -/
  literal : LiteralForm

/-- The built-in types. -/
def builtins : List Entry :=
  [⟨Text.ofString "number", Text.ofString "number(?<plural>s)?", .number⟩,
    ⟨Text.ofString "integer", Text.ofString "integer(?<plural>s)?", .integer⟩,
    ⟨Text.ofString "string", Text.ofString "(?:string|text)(?<plural>s)?", .string⟩,
    ⟨Text.ofString "boolean", Text.ofString "boolean(?<plural>s)?", .boolean⟩]

/-- Registers types one after the other up to the first that is refused; the registry that was
reached is given in either case. -/
def registerAll (dialect : Regex.Dialect) (r : Registry) : List Entry → Registry × Option Error
  | [] => (r, none)
  | e :: rest =>
    match r.register dialect e.name (.ofForm e.literal) e.spellings (some e.literal) with
    | .ok (r, _) => registerAll dialect r rest
    | .error error => (r, some error)

/-- Registers the built-in types. -/
def registerBuiltins (dialect : Regex.Dialect) (r : Registry) : Registry × Option Error :=
  r.registerAll dialect builtins

end Registry

end Phrasebook
