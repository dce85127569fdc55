import Phrasebook.Pattern
import Phrasebook.Pattern.Error

/-!
# Reading slots

Between two percent signs a slot is written as

    [-] [~ | * | @] type [/ type ...] [@1 | @-1 | @@1]

where `-` lets the slot stay empty, `~` asks for expressions and `*` or `@` for constants. The
suffix `@1` reads the value in its future state, `@-1` and `@@1` in its past state. A type that is
named twice in the same number counts once.
-/

namespace Phrasebook

namespace Pattern

/-- Whether a text may name a type: letters, digits and underscores, at least one of them. -/
def isTypeName (name : Text) : Bool :=
  !name.isEmpty && name.chars.all fun c => Unicode.isLetter c || Unicode.isDigit c || c == '_'

/-- The time that a suffix after `@` selects. -/
def tenseOfSuffix? (suffix : Text) : Option Tense :=
  if suffix = [0x31] then some .future
  else if suffix = [0x2D, 0x31] ∨ suffix = [0x40, 0x31] then some .past
  else none

/-- The types a slot refers to, with their spellings, `known` being those read before. -/
def readTypes (registry : Registry) (base : Nat) (known : List (TypeRef × Text)) :
    List Text → Except Fault (List (TypeRef × Text))
  | [] => .ok known
  | name :: names =>
    if !isTypeName name then
      .error ⟨base, .invalidSlot, Text.ofString "bad type name " ++ name.quoted⟩
    else
      match registry.typeRef? name with
      | none => .error ⟨base, .unknownType, name⟩
      | some ref =>
        if known.any (·.1.same ref) then readTypes registry base known names
        else readTypes registry base (known ++ [(ref, name)]) names

/-- The sign for what may fill a slot, and what follows it. -/
def readAcceptance : Text → Acceptance × Text
  | [] => (.both, [])
  | c :: rest =>
    if c = 0x7E then (.expressions, rest)
    else if c = 0x2A ∨ c = 0x40 then (.literals, rest)
    else (.both, c :: rest)

/-- The sign for a slot that may stay empty, and what follows it. -/
def readNullable : Text → Bool × Text
  | [] => (false, [])
  | c :: rest => if c = 0x2D then (true, rest) else (false, c :: rest)

/-- The slot that is written between percent signs; `base` is where it begins in the pattern. -/
def readSlot (registry : Registry) (inner : Text) (base : Nat) : Except Fault Slot :=
  let (nullable, rest) := readNullable inner
  let (acceptance, rest) := readAcceptance rest
  let names := rest.takeWhile (· != 0x40)
  let tense : Except Fault Tense :=
    match rest.dropWhile (· != 0x40) with
    | [] => .ok .none
    | _ :: suffix =>
      match tenseOfSuffix? suffix with
      | some tense => .ok tense
      | none =>
        .error ⟨base + (inner.length - suffix.length), .invalidSlot,
          Text.ofString "bad time suffix " ++ Text.quoted suffix⟩
  match tense with
  | .error fault => .error fault
  | .ok tense =>
    if names.isEmpty then
      .error ⟨base, .invalidSlot, Text.ofString "no type in " ++ inner.quoted⟩
    else
      match readTypes registry base [] (Text.splitOn 0x2F names) with
      | .error fault => .error fault
      | .ok types => .ok ⟨types.map (·.1), nullable, acceptance, tense, types.map (·.2)⟩

end Pattern

end Phrasebook
