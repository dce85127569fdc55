import Phrasebook.Text

/-!
# Numbers with 53 significant bits

A number is held as a signed mantissa times a power of two, exactly. Reading a decimal rounds it to
the nearest such number, a half going to the even mantissa, and fails when that is out of range.
Writing uses the fewest decimal digits that read back as the same number, and of those the nearest.

All of it is arithmetic on natural numbers.
-/

namespace Phrasebook

/-- A binary number of 53 significant bits: `mantissa * 2 ^ exponent`, with a sign that zero has
too. -/
structure Binary64 where
  /-- Whether the sign is a minus. -/
  negative : Bool
  /-- The mantissa, below `2 ^ 53`. -/
  mantissa : Nat
  /-- The exponent, at least `-1074`. -/
  exponent : Int
  deriving DecidableEq, Repr

namespace Binary64

/-- The least exponent. -/
def minExponent : Int := -1074

/-- The greatest exponent. -/
def maxExponent : Int := 971

/-- Zero. -/
def zero (negative : Bool) : Binary64 := ⟨negative, 0, minExponent⟩

/-- `num / den` divided by `2 ^ e` as a quotient, the remainder and the divisor. -/
def scaled (num den : Nat) (e : Int) : Nat × Nat × Nat :=
  let n := num * Nat.pow 2 (-e).toNat
  let d := den * Nat.pow 2 e.toNat
  (n / d, n % d, d)

/-- The exponent at which `num / den` has 53 bits, or the least exponent. -/
def exponentOf (num den : Nat) : Int :=
  let guess : Int := (num.log2 : Int) - den.log2 - 52
  let exact := if (scaled num den guess).1 < Nat.pow 2 52 then guess - 1 else guess
  max exact minExponent

/-- The number nearest to `num / den`; `none` when it is out of range. -/
def ofRatio (negative : Bool) (num den : Nat) : Option Binary64 :=
  let e := exponentOf num den
  let (q, r, d) := scaled num den e
  let m := if 2 * r > d ∨ (2 * r = d ∧ q % 2 = 1) then q + 1 else q
  let (m, e) := if m = Nat.pow 2 53 then (Nat.pow 2 52, e + 1) else (m, e)
  if e > maxExponent then none else some ⟨negative, m, e⟩

/-- The number nearest to `digits * 10 ^ exp`; `none` when it is out of range. -/
def ofDecimal (negative : Bool) (digits : Nat) (exp : Int) : Option Binary64 :=
  let leading : Int := (Nat.toDigits 10 digits).length + exp
  if digits = 0 ∨ leading < -330 then some (zero negative)
  else if leading > 310 then none
  else ofRatio negative (digits * Nat.pow 10 exp.toNat) (Nat.pow 10 (-exp).toNat)

/-! ### Arithmetic -/

/-- The number as a fraction, its sign aside. -/
def ratio (x : Binary64) : Nat × Nat :=
  (x.mantissa * Nat.pow 2 x.exponent.toNat, Nat.pow 2 (-x.exponent).toNat)

/-- The number nearest to a product; `none` when it is out of range. -/
def mul (x y : Binary64) : Option Binary64 :=
  ofRatio (x.negative != y.negative) (x.ratio.1 * y.ratio.1) (x.ratio.2 * y.ratio.2)

/-- The number nearest to a quotient; `none` when it is out of range, as it is for a divisor zero. -/
def div (x y : Binary64) : Option Binary64 :=
  if y.mantissa = 0 then none
  else ofRatio (x.negative != y.negative) (x.ratio.1 * y.ratio.2) (x.ratio.2 * y.ratio.1)

/-- The whole part of the number, its sign aside. -/
def whole (x : Binary64) : Nat :=
  x.ratio.1 / x.ratio.2

/-! ### Reading -/

/-- A run of decimal digits: its value, how many there were, and what follows. -/
def readDigits (value count : Nat) : Text → Nat × Nat × Text
  | [] => (value, count, [])
  | b :: rest =>
    if 48 ≤ b.toNat ∧ b.toNat ≤ 57 then readDigits (value * 10 + (b.toNat - 48)) (count + 1) rest
    else (value, count, b :: rest)

/-- The sign that may begin a number, and what follows it. -/
def readSign : Text → Bool × Text
  | 0x2D :: rest => (true, rest)
  | 0x2B :: rest => (false, rest)
  | t => (false, t)

/-- The digits of an exponent: its value, how many there were, and what follows. Digits after the
value has reached 10000 do not count. -/
def readExponent (value count : Nat) : Text → Nat × Nat × Text
  | [] => (value, count, [])
  | b :: rest =>
    if 48 ≤ b.toNat ∧ b.toNat ≤ 57 then
      readExponent (if value < 10000 then value * 10 + (b.toNat - 48) else value) (count + 1) rest
    else (value, count, b :: rest)

/-- The number a decimal text spells: a sign, digits with or without a point, and an exponent, the
sign and the exponent being optional. -/
def ofText? (t : Text) : Option Binary64 :=
  let (negative, rest) := readSign t
  let (whole, count, rest) := readDigits 0 0 rest
  let (digits, fraction, rest) := match rest with
    | 0x2E :: rest =>
      let (digits, total, rest) := readDigits whole count rest
      (digits, some (total - count), rest)
    | _ => (whole, none, rest)
  let places := fraction.getD 0
  if count + places = 0 then none
  else
    match rest with
    | [] => ofDecimal negative digits (-(places : Int))
    | e :: rest =>
      if e = 0x65 ∨ e = 0x45 then
        let (minus, rest) := readSign rest
        match readExponent 0 0 rest with
        | (value, length, []) =>
          if length = 0 then none
          else
            let exp : Int := if minus then -(value : Int) else value
            if digits = 0 then some (zero negative)
            else ofDecimal negative digits (exp - places)
        | _ => none
      else none

/-! ### Writing -/

/-- Whether `n * 10 ^ e` reads as the number of mantissa `m` and exponent `q`: it lies between the
points half way to its neighbours, which count when the mantissa is even. -/
def readsAs (m : Nat) (q : Int) (n : Nat) (e : Int) : Bool :=
  let low := if m = Nat.pow 2 52 ∧ q > minExponent then 4 * m - 1 else 4 * m - 2
  let high := 4 * m + 2
  let unit := q - 2
  let scale (x : Nat) : Nat := x * Nat.pow 2 unit.toNat * Nat.pow 10 (-e).toNat
  let point := n * Nat.pow 10 e.toNat * Nat.pow 2 (-unit).toNat
  if m % 2 = 0 then scale low ≤ point && point ≤ scale high
  else scale low < point && point < scale high

/-- The whole part of `m * 2 ^ q / 10 ^ e`, and whether what is left is at least half a unit. -/
def wholeUnits (m : Nat) (q e : Int) : Nat × Bool :=
  let num := m * Nat.pow 2 q.toNat * Nat.pow 10 (-e).toNat
  let den := Nat.pow 2 (-q).toNat * Nat.pow 10 e.toNat
  (num / den, den ≤ 2 * (num % den))

/-- The decimal exponent of the first digit of `m * 2 ^ q`, from a guess. -/
def leadingExponent (m : Nat) (q : Int) : Int :=
  let guess : Int := ((m.log2 : Int) + q) * 30103 / 100000
  if (wholeUnits m q (guess + 1)).1 ≥ 1 then guess + 1
  else if (wholeUnits m q guess).1 ≥ 1 then guess
  else guess - 1

/-- The fewest digits that read back, trying `tries` more lengths from `length` on: a number `n` and
the exponent `e` of its unit. -/
def shortest (m : Nat) (q top : Int) : Nat → Nat → Nat × Int
  | 0, length => (m, top - length)
  | tries + 1, length =>
    let e := top - length + 1
    let (low, roundUp) := wholeUnits m q e
    let lowReads := low ≠ 0 ∧ readsAs m q low e
    let highReads := readsAs m q (low + 1) e
    if lowReads ∧ highReads then (if roundUp then low + 1 else low, e)
    else if lowReads then (low, e)
    else if highReads then (low + 1, e)
    else shortest m q top tries (length + 1)

/-- The digits of a number without the zeros at its end. -/
def significant (n : Nat) : List Char :=
  let digits := ((Nat.toDigits 10 n).reverse.dropWhile (· == '0')).reverse
  if digits.isEmpty then ['0'] else digits

/-- The number in decimal. The exponent `x` of the first digit is written when it is below -4 or
above 5, with a sign and at least two digits. -/
def toText (f : Binary64) : Text :=
  let sign : Text := if f.negative then [0x2D] else []
  if f.mantissa = 0 then sign ++ [0x30]
  else
    let top := leadingExponent f.mantissa f.exponent
    let (n, e) := shortest f.mantissa f.exponent top 17 1
    let x : Int := (Nat.toDigits 10 n).length - 1 + e
    let digits := significant n
    let body : List Char :=
      if x < -4 ∨ x > 5 then
        let exponent := Nat.toDigits 10 x.natAbs
        let fraction := digits.drop 1
        digits.take 1 ++ (if fraction.isEmpty then [] else '.' :: fraction) ++
          ['e', if x < 0 then '-' else '+'] ++
          (if exponent.length < 2 then '0' :: exponent else exponent)
      else if x < 0 then ['0', '.'] ++ List.replicate (-x - 1).toNat '0' ++ digits
      else
        let whole := digits.take (x.toNat + 1)
        let fraction := digits.drop (x.toNat + 1)
        whole ++ List.replicate (x.toNat + 1 - whole.length) '0' ++
          (if fraction.isEmpty then [] else '.' :: fraction)
    sign ++ Text.ofChars body

end Binary64

end Phrasebook
