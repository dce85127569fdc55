import Phrasebook.Number.Binary64

/-!
# Dates and times

A plain scalar is a date, or a date with a time: after `T` with a time zone, or after blanks without
one. The day has to be in the month.
-/

namespace Phrasebook

namespace Timestamp

/-- A number of one or two digits, and what follows it. -/
def number? : Text → Option (Nat × Text)
  | [] => none
  | a :: rest =>
    if 48 ≤ a.toNat ∧ a.toNat ≤ 57 then
      match rest with
      | b :: more =>
        if 48 ≤ b.toNat ∧ b.toNat ≤ 57 then some ((a.toNat - 48) * 10 + (b.toNat - 48), more)
        else some (a.toNat - 48, rest)
      | [] => some (a.toNat - 48, [])
    else none

/-- What follows a byte. -/
def pass? (b : UInt8) : Text → Option Text
  | a :: rest => if a = b then some rest else none
  | [] => none

/-- Whether a year has a 29th of February. -/
def isLeap (year : Nat) : Bool :=
  year % 4 == 0 && (year % 100 != 0 || year % 400 == 0)

/-- The days of a month. -/
def daysIn (year month : Nat) : Nat :=
  if month = 2 then (if isLeap year then 29 else 28)
  else if [4, 6, 9, 11].contains month then 30
  else 31

/-- Passes a date: four digits of the year, the month and the day. -/
def date? (t : Text) : Option Text := do
  let (year, count, rest) := Binary64.readDigits 0 0 t
  if count ≠ 4 then none
  else
    let rest ← pass? 0x2D rest
    let (month, rest) ← number? rest
    let rest ← pass? 0x2D rest
    let (day, rest) ← number? rest
    if 1 ≤ month ∧ month ≤ 12 ∧ 1 ≤ day ∧ day ≤ daysIn year month then some rest else none

/-- Passes the fraction of a second, if there is one. -/
def passFraction (t : Text) : Text :=
  match t with
  | a :: b :: rest =>
    if (a = 0x2E ∨ a = 0x2C) ∧ 48 ≤ b.toNat ∧ b.toNat ≤ 57 then
      (Binary64.readDigits 0 0 (b :: rest)).2.2
    else t
  | _ => t

/-- Passes a time of day. -/
def time? (t : Text) : Option Text := do
  let (hour, rest) ← number? t
  let rest ← pass? 0x3A rest
  let (minute, rest) ← number? rest
  let rest ← pass? 0x3A rest
  let (second, rest) ← number? rest
  if hour < 24 ∧ minute < 60 ∧ second < 60 then some (passFraction rest) else none

/-- Whether a text is a time zone: `Z`, or a sign with hours and minutes. -/
def isZone : Text → Bool
  | [0x5A] => true
  | [s, a, b, 0x3A, c, d] =>
    let isDigit (x : UInt8) : Bool := 48 ≤ x.toNat && x.toNat ≤ 57
    let value (x y : UInt8) : Nat := (x.toNat - 48) * 10 + (y.toNat - 48)
    (s == 0x2B || s == 0x2D) && [a, b, c, d].all isDigit && value a b ≤ 24 && value c d ≤ 60
  | _ => false

/-- Whether a text is a date, with or without a time. -/
def isTimestamp (t : Text) : Bool :=
  match date? t with
  | none => false
  | some [] => true
  | some (separator :: rest) =>
    if separator = 0x54 ∨ separator = 0x74 then
      match time? rest with
      | some zone => isZone zone
      | none => false
    else if separator = 0x20 then time? (rest.dropWhile (· == 0x20)) == some []
    else false

end Timestamp

end Phrasebook
