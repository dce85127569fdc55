import Phrasebook.Text.Quoted
import Phrasebook.Number.Binary64

/-!
# Durations

A duration is written as decimal numbers with units, one after the other, such as `1h30m` or
`50ms`, with an optional sign in front. It is held in nanoseconds and has to fit 64 bits. Whole
units are counted exactly; what stands after a point is worked out in numbers of 53 significant bits
and loses what is less than a nanosecond.
-/

namespace Phrasebook

namespace Duration

/-- Why a text is no duration. -/
inductive Error where
  /-- It has no such form. -/
  | invalid (text : Text)
  /-- A number has no unit. -/
  | missingUnit (text : Text)
  /-- A unit has no such name. -/
  | unknownUnit (unit text : Text)
  deriving DecidableEq, Repr

namespace Error

/-- The error in words. -/
def message : Error → Text
  | .invalid text => Text.ofString "time: invalid duration " ++ text.quotedAscii
  | .missingUnit text => Text.ofString "time: missing unit in duration " ++ text.quotedAscii
  | .unknownUnit unit text =>
    Text.ofString "time: unknown unit " ++ unit.quotedAscii ++ Text.ofString " in duration " ++
      text.quotedAscii

end Error

/-- The nanoseconds of a unit. -/
def unit? (name : Text) : Option Nat :=
  [(Text.ofString "ns", 1), (Text.ofString "us", 1000), (Text.ofString "µs", 1000),
    (Text.ofString "μs", 1000), (Text.ofString "ms", 1000000), (Text.ofString "s", 1000000000),
    (Text.ofString "m", 60000000000), (Text.ofString "h", 3600000000000)].lookup name

/-- The bytes a number with a point is made of. -/
def isNumeral (b : UInt8) : Bool :=
  b == 0x2E || (0x30 ≤ b && b ≤ 0x39)

/-- The largest number of nanoseconds, which only a negative duration reaches. -/
def limit : Nat := Nat.pow 2 63

/-- The digits after a point, as a number of 63 bits, with the power of ten that it is divided by,
and what follows them. Once a digit does not fit, `full` is set and no more of them count; a power
of ten that is out of range is `none`. -/
def readFraction (value : Nat) (scale : Option Binary64) (full : Bool) :
    Text → Nat × Option Binary64 × Text
  | [] => (value, scale, [])
  | b :: rest =>
    if 48 ≤ b.toNat ∧ b.toNat ≤ 57 then
      let next := value * 10 + (b.toNat - 48)
      if full ∨ value > (limit - 1) / 10 ∨ next > limit then readFraction value scale true rest
      else readFraction next (do (← scale).mul (← Binary64.ofRatio false 10 1)) false rest
    else (value, scale, b :: rest)

/-- The nanoseconds of a fraction of a unit; a divisor that is out of range leaves none. -/
def partOfUnit (unit fraction : Nat) (scale : Option Binary64) : Nat :=
  let product : Option Binary64 := do
    (← Binary64.ofRatio false fraction 1).mul (← (← Binary64.ofRatio false unit 1).div (← scale))
  (product.map Binary64.whole).getD 0

/-- The nanoseconds of what is left of a duration, `sum` being those read so far. The sum is kept in
64 bits. -/
def readParts (text : Text) : Nat → Nat → Text → Except Error Nat
  | _, sum, [] => .ok sum
  | 0, _, _ => .error (.invalid text)
  | fuel + 1, sum, b :: more =>
    if ¬ isNumeral b then .error (.invalid text)
    else
      let (whole, count, rest) := Binary64.readDigits 0 0 (b :: more)
      let (places, fraction, scale, rest) := match rest with
        | 0x2E :: digits =>
          let (fraction, scale, rest) :=
            readFraction 0 (Binary64.ofRatio false 1 1) false digits
          (digits.length - rest.length, fraction, scale, rest)
        | _ => (0, 0, none, rest)
      if whole > limit then .error (.invalid text)
      else if count + places = 0 then .error (.invalid text)
      else
        let name := rest.takeWhile fun b => !isNumeral b
        let rest := rest.dropWhile fun b => !isNumeral b
        if name.isEmpty then .error (.missingUnit text)
        else
          match unit? name with
          | none => .error (.unknownUnit name text)
          | some unit =>
            let part := whole * unit + partOfUnit unit fraction scale
            let total := (sum + part) % Nat.pow 2 64
            if whole * unit > limit ∨ part > limit ∨ total > limit then .error (.invalid text)
            else readParts text fuel total rest

/-- The nanoseconds a text spells. -/
def ofText (text : Text) : Except Error Int :=
  let (negative, rest) := Binary64.readSign text
  if rest = [0x30] then .ok 0
  else if rest.isEmpty then .error (.invalid text)
  else do
    let total ← readParts text rest.length 0 rest
    if negative then .ok (-(total : Int))
    else if total ≥ limit then .error (.invalid text)
    else .ok total

end Duration

end Phrasebook
