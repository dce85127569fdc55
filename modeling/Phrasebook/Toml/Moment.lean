import Phrasebook.Toml.Value
import Phrasebook.Yaml.Timestamp

/-!
# Dates and times in full

A date is written with all its digits, a time with seconds and perhaps a fraction of them, and a time
zone as `Z` or a signed number of hours and minutes.
-/

namespace Phrasebook

namespace Toml

namespace MomentForm

/-- The value of digits, all of which have to be there. -/
def digits? (t : Text) : Option Nat :=
  match Binary64.readDigits 0 0 t with
  | (value, _, []) => some value
  | _ => none

/-- Whether ten bytes are a date. -/
def isDate (t : Text) : Bool :=
  match t with
  | [y₁, y₂, y₃, y₄, 0x2D, m₁, m₂, 0x2D, d₁, d₂] =>
    match digits? [y₁, y₂, y₃, y₄], digits? [m₁, m₂], digits? [d₁, d₂] with
    | some year, some month, some day =>
      0 < year && 1 ≤ month && month ≤ 12 && 1 ≤ day && day ≤ Timestamp.daysIn year month
    | _, _, _ => false
  | _ => false

/-- What follows a time of day. -/
def afterTime? (t : Text) : Option Text :=
  match t with
  | h₁ :: h₂ :: 0x3A :: m₁ :: m₂ :: 0x3A :: s₁ :: s₂ :: rest =>
    match digits? [h₁, h₂], digits? [m₁, m₂], digits? [s₁, s₂] with
    | some hour, some minute, some second =>
      if hour ≤ 23 ∧ minute ≤ 59 ∧ second ≤ 60 then
        match rest with
        | 0x2E :: fraction =>
          let (_, count, rest) := Binary64.readDigits 0 0 fraction
          if count = 0 then none else some rest
        | _ => some rest
      else none
    | _, _, _ => none
  | _ => none

/-- What follows a date with a time of day. -/
def afterDateTime? (t : Text) : Option Text :=
  match t.drop 10 with
  | separator :: rest =>
    if isDate (t.take 10) ∧ (separator = 0x54 ∨ separator = 0x74 ∨ separator = 0x20) then
      afterTime? rest
    else none
  | [] => none

/-- Whether a text is a time zone. -/
def isZone : Text → Bool
  | [] => true
  | [z] => z == 0x5A || z == 0x7A
  | [s, h₁, h₂, 0x3A, m₁, m₂] =>
    match digits? [h₁, h₂], digits? [m₁, m₂] with
    | some hours, some minutes => (s == 0x2B || s == 0x2D) && hours ≤ 23 && minutes ≤ 59
    | _, _ => false
  | _ => false

/-- Whether a text is a date or time of a form. -/
def accepts (form : MomentForm) (t : Text) : Bool :=
  match form with
  | .date => isDate t
  | .time => afterTime? t == some []
  | .dateTime => afterDateTime? t == some []
  | .zoned =>
    match afterDateTime? t with
    | some zone => isZone zone
    | none => false

end MomentForm

end Toml

end Phrasebook
