import Phrasebook.Text

/-!
# Base 64

Bytes written with an alphabet of 64 signs, three bytes as four signs, with equals signs to fill up
the last four. Line ends between the signs are passed over when reading.
-/

namespace Phrasebook

namespace Base64

/-- The sign of a number below 64. -/
def sign (n : Nat) : UInt8 :=
  if n < 26 then (65 + n).toUInt8
  else if n < 52 then (97 + (n - 26)).toUInt8
  else if n < 62 then (48 + (n - 52)).toUInt8
  else if n = 62 then 0x2B
  else 0x2F

/-- The number of a sign. -/
def number? (b : UInt8) : Option Nat :=
  let n := b.toNat
  if 65 ≤ n ∧ n ≤ 90 then some (n - 65)
  else if 97 ≤ n ∧ n ≤ 122 then some (n - 97 + 26)
  else if 48 ≤ n ∧ n ≤ 57 then some (n - 48 + 52)
  else if n = 0x2B then some 62
  else if n = 0x2F then some 63
  else none

/-- The sign that fills up the last four. -/
def filler : UInt8 := 0x3D

/-- Bytes in base 64. -/
def encode : Text → Text
  | [] => []
  | [a] => [sign (a.toNat / 4), sign (a.toNat % 4 * 16), filler, filler]
  | [a, b] =>
    [sign (a.toNat / 4), sign (a.toNat % 4 * 16 + b.toNat / 16), sign (b.toNat % 16 * 4), filler]
  | a :: b :: c :: rest =>
    sign (a.toNat / 4) :: sign (a.toNat % 4 * 16 + b.toNat / 16) ::
      sign (b.toNat % 16 * 4 + c.toNat / 64) :: sign (c.toNat % 64) :: encode rest

/-- The bytes of four signs at a time; only the last four may be filled up. -/
def decodeSigns : Text → Option Text
  | [] => some []
  | a :: b :: c :: d :: rest =>
    match number? a, number? b, number? c, number? d with
    | some i, some j, some k, some l =>
      (decodeSigns rest).map fun bytes =>
        (i * 4 + j / 16).toUInt8 :: (j % 16 * 16 + k / 4).toUInt8 :: (k % 4 * 64 + l).toUInt8 :: bytes
    | some i, some j, some k, none =>
      if d = filler ∧ rest = [] then
        some [(i * 4 + j / 16).toUInt8, (j % 16 * 16 + k / 4).toUInt8]
      else none
    | some i, some j, none, none =>
      if c = filler ∧ d = filler ∧ rest = [] then some [(i * 4 + j / 16).toUInt8] else none
    | _, _, _, _ => none
  | _ => none

/-- The bytes of a text in base 64. -/
def decode (t : Text) : Option Text :=
  decodeSigns (t.filter fun b => b != 0x0A && b != 0x0D)

end Base64

end Phrasebook
