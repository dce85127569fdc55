import Phrasebook.Yaml.Scalar

/-!
# Texts between quotes

A text stands between double quotes, where a backslash begins an escape, or between single quotes,
where it does not. Three quotes begin a text of several lines, which may end with up to two more
quotes of its own. No control characters but tabs, and line ends where they are allowed, may stand in
a text.
-/

namespace Phrasebook

namespace Toml

/-- The double quote. -/
def doubleQuote : UInt8 := 0x22

/-- The single quote. -/
def singleQuote : UInt8 := 0x27

/-- Whether a byte is a control character that may not stand in a document. -/
def isControl (b : UInt8) : Bool :=
  (b < 0x20 && b != 0x09 && b != 0x0A && b != 0x0D) || b == 0x7F

/-- Whether a text may stand in a document as it is. -/
def isClean (t : Text) : Bool :=
  t.isValid && t.all (!isControl ·)

/-! ### Finding the end -/

/-- What stands before the quote that ends a text of one line, and what follows it. -/
def lineBody (quote : UInt8) : Text → Option (Text × Text)
  | [] => none
  | b :: rest =>
    if b = quote then some ([], rest)
    else if b = 0x0A ∨ b = 0x0D then none
    else if b = 0x5C ∧ quote = doubleQuote then
      match rest with
      | c :: rest => (lineBody quote rest).map fun (body, rest) => (b :: c :: body, rest)
      | [] => none
    else (lineBody quote rest).map fun (body, rest) => (b :: body, rest)

/-- What stands before the three quotes that end a text of several lines, and what follows them. -/
def blockBody (quote : UInt8) : Text → Option (Text × Text)
  | [] => none
  | b :: rest =>
    let quotes := ((b :: rest).takeWhile (· == quote)).length
    if 3 ≤ quotes then
      if quotes ≤ 5 then some (List.replicate (quotes - 3) quote, (b :: rest).drop quotes) else none
    else if b = 0x5C ∧ quote = doubleQuote then
      match rest with
      | c :: rest => (blockBody quote rest).map fun (body, rest) => (b :: c :: body, rest)
      | [] => none
    else if b = 0x0D then
      match rest with
      | 0x0A :: rest => (blockBody quote rest).map fun (body, rest) => (0x0D :: 0x0A :: body, rest)
      | _ => none
    else (blockBody quote rest).map fun (body, rest) => (b :: body, rest)

/-- A text of several lines without the line end that may begin it. -/
def dropFirstBreak : Text → Text
  | 0x0A :: rest => rest
  | 0x0D :: 0x0A :: rest => rest
  | t => t

/-! ### Escapes -/

/-- The byte that a letter after a backslash stands for. -/
def escaped? (b : UInt8) : Option UInt8 :=
  [(0x22, 0x22), (0x5C, 0x5C), (0x62, 0x08), (0x66, 0x0C), (0x6E, 0x0A), (0x72, 0x0D),
    (0x74, 0x09), (0x65, 0x1B)].lookup b

/-- The character that hexadecimal digits stand for. -/
def codePoint? (digits : Text) : Option Text :=
  let digit (b : UInt8) : Option Nat := Yaml.hexDigit? (Char.ofNat b.toNat)
  match digits.mapM digit with
  | some values =>
    let n := values.foldl (fun n d => n * 16 + d) 0
    if Yaml.isCode n then some (Text.encodeCode n) else none
  | none => none

/-- Whether only blanks are left on a line. -/
def endsLine (t : Text) : Bool :=
  match t.dropWhile fun b => b == 0x20 || b == 0x09 with
  | 0x0A :: _ => true
  | 0x0D :: 0x0A :: _ => true
  | _ => false

/-- A text with its escapes replaced. In a text of several lines a backslash at the end of a line
stands for nothing, with all white space that follows; `skipping` says that such space is being
passed. -/
def unescape (severalLines skipping : Bool) : Text → Option Text
  | [] => some []
  | b :: rest =>
    if skipping ∧ (b = 0x0A ∨ b = 0x0D ∨ b = 0x20 ∨ b = 0x09) then
      unescape severalLines true rest
    else if b ≠ 0x5C then (unescape severalLines false rest).map (b :: ·)
    else if severalLines ∧ endsLine rest then unescape severalLines true rest
    else
      match rest with
      | [] => none
      | c :: rest =>
        match escaped? c with
        | some d => (unescape severalLines false rest).map (d :: ·)
        | none =>
          if c = 0x75 then
            match rest with
            | d₁ :: d₂ :: d₃ :: d₄ :: rest =>
              match codePoint? [d₁, d₂, d₃, d₄] with
              | some bytes => (unescape severalLines false rest).map (bytes ++ ·)
              | none => none
            | _ => none
          else if c = 0x55 then
            match rest with
            | d₁ :: d₂ :: d₃ :: d₄ :: d₅ :: d₆ :: d₇ :: d₈ :: rest =>
              match codePoint? [d₁, d₂, d₃, d₄, d₅, d₆, d₇, d₈] with
              | some bytes => (unescape severalLines false rest).map (bytes ++ ·)
              | none => none
            | _ => none
          else none

/-! ### Whole texts -/

/-- A text of one line, after its opening quote. -/
def lineText? (quote : UInt8) (t : Text) : Option (Text × Text) :=
  match lineBody quote t with
  | some (body, rest) =>
    if isClean body then
      if quote = doubleQuote then (unescape false false body).map fun t => (t, rest)
      else some (body, rest)
    else none
  | none => none

/-- A text of several lines, after its opening quotes. -/
def blockText? (quote : UInt8) (t : Text) : Option (Text × Text) :=
  match blockBody quote t with
  | some (body, rest) =>
    let body := dropFirstBreak body
    if isClean body then
      if quote = doubleQuote then (unescape true false body).map fun t => (t, rest)
      else some (body, rest)
    else none
  | none => none

/-- A text in quotes of either kind. -/
def text? (quote : UInt8) (t : Text) : Option (Text × Text) :=
  match Text.after? [quote, quote, quote] t with
  | some rest => blockText? quote rest
  | none => lineText? quote (t.drop 1)

end Toml

end Phrasebook
