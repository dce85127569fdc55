import Phrasebook.Text

/-!
# Integers in several bases

Integers written in digits of a base, with or without a sign, and the two bounds on integers of 64
bits.
-/

namespace Phrasebook

namespace Integer

/-- The value of a digit, letters of either case standing for ten and up. -/
def digit? (b : UInt8) : Option Nat :=
  let n := b.toNat
  if 48 ≤ n ∧ n ≤ 57 then some (n - 48)
  else if 97 ≤ n ∧ n ≤ 122 then some (n - 87)
  else if 65 ≤ n ∧ n ≤ 90 then some (n - 55)
  else none

/-- The value of digits that follow others. -/
def digitsFrom? (base value : Nat) : Text → Option Nat
  | [] => some value
  | b :: rest =>
    match digit? b with
    | some d => if d < base then digitsFrom? base (value * base + d) rest else none
    | none => none

/-- The value of one or more digits. -/
def digits? (base : Nat) (t : Text) : Option Nat :=
  if t.isEmpty then none else digitsFrom? base 0 t

/-- A value with a sign. -/
def withSign (negative : Bool) (n : Nat) : Int :=
  if negative then -(n : Int) else n

/-- Whether an integer fits 64 bits with a sign. -/
def fits (n : Int) : Bool :=
  -Int.pow 2 63 ≤ n && n < Int.pow 2 63

/-- The value of a text with an optional sign, what follows it being read by `read`. -/
def signed? (read : Text → Option Nat) (t : Text) : Option Int :=
  match t with
  | 0x2D :: rest => (read rest).map (withSign true)
  | 0x2B :: rest => (read rest).map (withSign false)
  | _ => (read t).map (withSign false)

/-- The value of digits whose start names the base: `0x` sixteen, `0o` and a bare `0` eight, `0b`
two. -/
def prefixed? (t : Text) : Option Nat :=
  match t with
  | 0x30 :: c :: d :: rest =>
    if c = 0x62 ∨ c = 0x42 then digits? 2 (d :: rest)
    else if c = 0x6F ∨ c = 0x4F then digits? 8 (d :: rest)
    else if c = 0x78 ∨ c = 0x58 then digits? 16 (d :: rest)
    else digits? 8 (c :: d :: rest)
  | 0x30 :: rest => digitsFrom? 8 0 rest
  | _ => digits? 10 t

end Integer

end Phrasebook
