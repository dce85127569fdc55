import Phrasebook.Regex.CharSet
import Phrasebook.Regex.Error

/-!
# Escapes and sets in a source

The parts of a source that stand for a character or for a set of characters: numbers and names,
escapes after a backslash, class escapes and bracketed sets. A source is read as a list of code
points; each reader returns what it read with what follows it.

`Regex.quote` goes the other way: it writes a text so that it stands for itself.
-/

namespace Phrasebook

namespace Regex

/-- The code point of an ASCII character. -/
abbrev code (c : Char) : Nat := c.toNat

/-- The text of code points; one that no character has is written as the replacement character. -/
def textOf (s : List Nat) : Text :=
  s.flatMap fun n => Text.encodeChar (if n = 0 || (Char.ofNat n).toNat ≠ 0 then Char.ofNat n
    else Text.replacement)

/-- The greatest number a source may write. -/
def maxNumber : Nat := 2147483647

/-- ASCII digits. -/
def isDigitCode (n : Nat) : Bool := 48 ≤ n && n ≤ 57

/-- A decimal number, `value` being what was read of it. -/
def readNumber (value : Nat) : List Nat → Except Error (Nat × List Nat)
  | [] => .ok (value, [])
  | c :: rest =>
    if isDigitCode c then
      let next := value * 10 + (c - 48)
      if next > maxNumber then .error .numberOutOfRange else readNumber next rest
    else .ok (value, c :: rest)

/-- A name: the word characters that begin a source. -/
def readName (s : List Nat) : List Nat × List Nat :=
  (s.takeWhile isWordCode, s.dropWhile isWordCode)

/-- The value of a hexadecimal digit. -/
def hexValue? (n : Nat) : Option Nat :=
  if isDigitCode n then some (n - 48)
  else if 97 ≤ n ∧ n ≤ 102 then some (n - 87)
  else if 65 ≤ n ∧ n ≤ 70 then some (n - 55)
  else none

/-- A number of exactly `digits` hexadecimal digits. -/
def readHex (value : Nat) : Nat → List Nat → Except Error (Nat × List Nat)
  | 0, s => .ok (value, s)
  | _ + 1, [] => .error .tooFewHexDigits
  | digits + 1, c :: rest =>
    match hexValue? c with
    | some d => readHex (value * 16 + d) digits rest
    | none => .error .tooFewHexDigits

/-- A hexadecimal number up to a closing brace; `any` tells whether a digit was read. -/
def readBracedHex (value : Nat) (any : Bool) : List Nat → Except Error (Nat × List Nat)
  | [] => .error .missingBrace
  | c :: rest =>
    if c = 0x7D then if any then .ok (value, rest) else .error .tooFewHexDigits
    else
      match hexValue? c with
      | none => .error .missingBrace
      | some d =>
        if value * 16 + d > 0x10FFFF then .error .hexTooLarge
        else readBracedHex (value * 16 + d) true rest

/-- An octal number of at most `digits` digits; only its low eight bits count. -/
def readOctal (value : Nat) : Nat → List Nat → Nat × List Nat
  | digits + 1, c :: rest =>
    if 48 ≤ c ∧ c ≤ 55 then readOctal (value * 8 + (c - 48)) digits rest
    else (value % 256, c :: rest)
  | _, s => (value % 256, s)

/-- The control character that a letter after `\c` names. -/
def readControl : List Nat → Except Error (Nat × List Nat)
  | [] => .error .missingControl
  | c :: rest =>
    let upper := if 97 ≤ c ∧ c ≤ 122 then c - 32 else c
    if 64 ≤ upper ∧ upper < 96 then .ok (upper - 64, rest) else .error .unrecognizedControl

/-- The character that an escape stands for, the backslash being read. -/
def readEscape : List Nat → Except Error (Nat × List Nat)
  | [] => .error .trailingBackslash
  | c :: rest =>
    if 48 ≤ c ∧ c ≤ 55 then .ok (readOctal 0 3 (c :: rest))
    else if c = code 'x' then
      match rest with
      | 0x7B :: rest => readBracedHex 0 false rest
      | _ => readHex 0 2 rest
    else if c = code 'u' then readHex 0 4 rest
    else if c = code 'a' then .ok (7, rest)
    else if c = code 'b' then .ok (8, rest)
    else if c = code 'e' then .ok (27, rest)
    else if c = code 'f' then .ok (12, rest)
    else if c = code 'n' then .ok (10, rest)
    else if c = code 'r' then .ok (13, rest)
    else if c = code 't' then .ok (9, rest)
    else if c = code 'v' then .ok (11, rest)
    else if c = code 'c' then readControl rest
    else if isWordCode c then .error (.unrecognizedEscape (textOf [c]))
    else .ok (c, rest)

/-- The class of a name in a source. -/
def classNamed (name : List Nat) : Except Error CharClass :=
  match CharClass.named? (String.ofList (name.map Char.ofNat)) with
  | some cls => .ok cls
  | none => .error (.unknownClass (textOf name))

/-- The class that `\p` or `\P` names: one letter, or a name in braces. -/
def readClass (s : List Nat) : Except Error (CharClass × List Nat) :=
  match s with
  | [] => .error .incompleteClass
  | c :: rest =>
    if c ≠ 0x7B then (classNamed [c]).map (·, rest)
    else if s.length < 3 then .error .incompleteClass
    else
      let named (n : Nat) : Bool := isWordCode n || n == 0x2D
      match rest.dropWhile named with
      | 0x7D :: after => (classNamed (rest.takeWhile named)).map (·, after)
      | _ => .error .incompleteClass

/-- What follows a bracketed class name such as `[:alpha:]`, which has no meaning of its own and is
passed over; `s` follows its opening bracket. -/
def skipBracketName (s : List Nat) : List Nat :=
  match s with
  | 0x3A :: rest =>
    let rest := match rest with
      | 0x5E :: more@(_ :: _) => more
      | _ => rest
    match (readName rest).2 with
    | 0x3A :: 0x5D :: after => after
    | _ => s
  | _ => s

/-- The rest of a set. The set read so far is `layer` with `taken` taken away; `first` holds before
anything was read, and `range` is the start of a range whose end is still to come. -/
def readSetFrom (ignoreCase : Bool) : Nat → CharLayer → CharSet → Bool → Option Nat → List Nat →
    Except Error (CharSet × List Nat)
  | 0, _, _, _, _, _ => .error .unterminatedSet
  | _ + 1, _, _, _, _, [] => .error .unterminatedSet
  | fuel + 1, layer, taken, first, range, c :: rest =>
    let subtract (layer : CharLayer) (s : List Nat) : Except Error (CharSet × List Nat) := do
      let (negated, s) := match s with
        | 0x5E :: s => (true, s)
        | s => (false, s)
      let (inner, after) ← readSetFrom ignoreCase fuel ⟨negated, [], []⟩ [] true none s
      match after with
      | [] => .error .unterminatedSet
      | d :: _ =>
        if d ≠ 0x5D then .error .subtractionNotLast
        else readSetFrom ignoreCase fuel layer inner false none after
    let addChar (c : Nat) (escaped : Bool) (rest : List Nat) :
        Except Error (CharSet × List Nat) :=
      match range with
      | some lo =>
        if c = 0x5B ∧ ¬ escaped ∧ ¬ first then subtract (layer.addRange lo lo) rest
        else if lo > c then .error (.reversedRange (textOf [lo]) (textOf [c]))
        else readSetFrom ignoreCase fuel (layer.addRange lo c) taken false none rest
      | none =>
        match rest with
        | 0x2D :: d :: more =>
          if d ≠ 0x5D then readSetFrom ignoreCase fuel layer taken false (some c) (d :: more)
          else readSetFrom ignoreCase fuel (layer.addRange c c) taken false none rest
        | 0x5B :: more =>
          if c = 0x2D ∧ ¬ escaped ∧ ¬ first then subtract layer more
          else readSetFrom ignoreCase fuel (layer.addRange c c) taken false none rest
        | _ => readSetFrom ignoreCase fuel (layer.addRange c c) taken false none rest
    let addClass (cls : CharClass) (negated : Bool) (letter : Nat) (rest : List Nat) :
        Except Error (CharSet × List Nat) :=
      if range.isSome then .error (.classInRange letter)
      else readSetFrom ignoreCase fuel (layer.addNamed cls negated ignoreCase) taken false none rest
    if c = 0x5D ∧ ¬ first then
      .ok ((if ignoreCase then layer.addLower else layer) :: taken, rest)
    else if c = 0x5C then
      match rest with
      | [] => addChar c false rest
      | d :: more =>
        if d = code 'd' ∨ d = code 'D' then addClass (.category "Nd") (d == code 'D') d more
        else if d = code 's' ∨ d = code 'S' then addClass .blank (d == code 'S') d more
        else if d = code 'w' ∨ d = code 'W' then addClass .word (d == code 'W') d more
        else if d = code 'p' ∨ d = code 'P' then
          if range.isSome then .error (.classInRange d)
          else do
            let (cls, more) ← readClass more
            addClass cls (d == code 'P') d more
        else if d = 0x2D then
          readSetFrom ignoreCase fuel (layer.addRange d d) taken false range more
        else do
          let (n, more) ← readEscape rest
          addChar n true more
    else if c = 0x5B ∧ range.isNone then addChar c false (skipBracketName rest)
    else addChar c false rest

/-- A bracketed set, its opening bracket being read. -/
def readSet (ignoreCase : Bool) (s : List Nat) : Except Error (CharSet × List Nat) :=
  match s with
  | 0x5E :: rest => readSetFrom ignoreCase (s.length + 1) ⟨true, [], []⟩ [] true none rest
  | _ => readSetFrom ignoreCase (s.length + 1) ⟨false, [], []⟩ [] true none s

/-- Characters that mean something in a source. -/
def isMeta (c : Char) : Bool :=
  "\\.+*?()|[]\x7b\x7d^$# ".toList.contains c

/-- One character written so that it stands for itself. -/
def quoteChar (c : Char) : Text :=
  if Unicode.isPrintable c then
    if isMeta c then 0x5C :: Text.encodeChar c else Text.encodeChar c
  else
    match c.toNat with
    | 7 => Text.ofString "\\a"
    | 12 => Text.ofString "\\f"
    | 10 => Text.ofString "\\n"
    | 13 => Text.ofString "\\r"
    | 9 => Text.ofString "\\t"
    | 11 => Text.ofString "\\v"
    | n =>
      if n < 0x100 then Text.ofString "\\x" ++ Text.hex 2 n
      else Text.ofString "\\u" ++ Text.hex 0 n

/-- A text written so that it stands for itself. -/
def quote (t : Text) : Text :=
  t.chars.flatMap quoteChar

end Regex

end Phrasebook
