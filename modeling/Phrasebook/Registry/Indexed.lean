import Phrasebook.Registry

/-!
# The registry as it is kept

The types of a registry are kept twice: an index leads from a name to what is registered under it,
and a list has the same in the order in which the names came. A registration makes a new object,
also where it takes the place of another. The place in the list is found by looking for the very
object that the index gave for the name, whatever the objects hold.

Registering gives an answer and the registry that is left, so that a registration which fails leaves
something behind as well. `Indexed.after` is what a sequence of them leaves, whether they fail or
not.
-/

namespace Phrasebook

namespace Registry

/-- What is given to register a type. -/
structure Request where
  /-- The name. -/
  name : Text
  /-- The kind of its values. -/
  kind : Kind
  /-- The expression for the spellings of the name. -/
  spellings : Text
  /-- How constants are written, if they can be. -/
  literal : Option LiteralForm

/-- The type that a request asks for, once its expression has been compiled. -/
def Request.type (q : Request) (finder : Regex.Finder) : ValueType :=
  ⟨q.name, q.kind, q.spellings, finder, q.literal⟩

/-- A registered type as an object: it may hold what another holds and still not be that one. -/
structure Object where
  /-- The number of the object, by which it is told from the others. -/
  serial : Nat
  /-- The type. -/
  type : ValueType

/-- A registry as an index and a list. -/
structure Indexed where
  /-- The object registered under a name. -/
  byName : Text → Option Object
  /-- The objects, in the order in which their names were first registered. -/
  order : List Object
  /-- How many objects have been made. -/
  made : Nat

namespace Indexed

/-- The registry without types. -/
def empty : Indexed := ⟨fun _ => none, [], 0⟩

/-- The object that a request makes. -/
def make (t : Indexed) (q : Request) (finder : Regex.Finder) : Object :=
  ⟨t.made, q.type finder⟩

/-- The list with one object in the place of another. -/
def substitute (former object : Object) (order : List Object) : List Object :=
  order.map fun o => if o.serial = former.serial then object else o

/-- Puts an object in the index, with the list as it is to be. -/
def record (t : Indexed) (object : Object) (order : List Object) : Indexed where
  byName name := if name = object.type.name then some object else t.byName name
  order := order
  made := t.made + 1

/-- Registers a type: the answer, and the registry that is left. -/
def register (dialect : Regex.Dialect) (t : Indexed) (q : Request) :
    Except Error Object × Indexed :=
  if q.name.isEmpty then (.error .emptyName, t)
  else
    match dialect.compile (Regex.whole q.spellings) with
    | .error reason => (.error (.invalidSpellings q.spellings reason), t)
    | .ok finder =>
      let object := t.make q finder
      match t.byName q.name with
      | some former =>
        if former.type.kind = q.kind then
          (.ok object, t.record object (substitute former object t.order))
        else (.error (.kindConflict q.name former.type.kind q.kind), t)
      | none => (.ok object, t.record object (t.order ++ [object]))

/-- The types in order. -/
def types (t : Indexed) : List ValueType :=
  t.order.map Object.type

/-- Their names. -/
def names (t : Indexed) : List Text :=
  t.types.map ValueType.name

/-- The type registered under a name. -/
def typeNamed? (t : Indexed) (name : Text) : Option ValueType :=
  (t.byName name).map Object.type

/-- The first type that a text spells. -/
def bySpelling? (t : Indexed) (text : Text) : Option ValueType :=
  t.types.find? fun type => (type.spelling? text).isSome

/-- The type reference that a text makes: the type of this very name, singular, or else the first
type that the text spells. -/
def typeRef? (t : Indexed) (text : Text) : Option TypeRef :=
  match t.byName text with
  | some o => some ⟨some o.type, true⟩
  | none =>
    t.types.findSome? fun type =>
      (type.spelling? text).map fun plural => ⟨some type, !plural⟩

/-- What is left of a registry after requests one after the other. -/
def after (dialect : Regex.Dialect) (t : Indexed) (requests : List Request) : Indexed :=
  requests.foldl (fun t q => (t.register dialect q).2) t

/-- The answers to requests one after the other. -/
def answers (dialect : Regex.Dialect) (t : Indexed) : List Request → List (Except Error Object)
  | [] => []
  | q :: rest => (t.register dialect q).1 :: answers dialect (t.register dialect q).2 rest

/-- The objects that were made and registered. -/
def accepted (dialect : Regex.Dialect) (t : Indexed) (requests : List Request) : List Object :=
  (t.answers dialect requests).filterMap Except.toOption

/-- The registry as a list of types. -/
def registry (t : Indexed) : Registry := ⟨t.types⟩

end Indexed

end Registry

end Phrasebook
