import Phrasebook.Record
import Phrasebook.Yaml.Meaning
import Phrasebook.Yaml.Stream

/-!
# Writing YAML

A record is written by layout: the fields of a record in a column, the items of a list each after a
dash. A text is written plainly where it reads back as that text, over several lines where it has
line ends, and otherwise in quotes. Bytes that are no characters are written in base 64.
-/

namespace Phrasebook

namespace Yaml

/-! ### What a text allows -/

/-- Whether a character is written as it is. -/
def isPrintable (c : Char) : Bool :=
  let n := c.toNat
  n == 0x0A || (0x20 ≤ n && n ≤ 0x7E) || (0xA0 ≤ n && n ≤ 0xD7FF) ||
    (0xE000 ≤ n && n ≤ 0xFFFD && n != 0xFEFF)

/-- Whether a character ends a line, whatever the way. -/
def isAnyBreak (c : Char) : Bool :=
  isBreak c || c == '\r' || c.toNat == 0x85

/-- Whether two neighbours are of given classes. -/
def hasPair (p q : Char → Bool) : List Char → Bool
  | a :: b :: rest => (p a && q b) || hasPair p q (b :: rest)
  | _ => false

/-- Whether a character is a blank, a line end or the null character. -/
def isSpacing (c : Char) : Bool :=
  isBlank c || isAnyBreak c || c.toNat == 0

/-- Whether a plain scalar may not begin with these characters. -/
def startsWithSign : List Char → Bool
  | [] => false
  | c :: rest =>
    let ends : Bool := match rest with
      | [] => true
      | d :: _ => isSpacing d
    ['#', ',', '[', ']', '{', '}', '&', '*', '!', '|', '>', '\'', '"', '%', '@', '`'].contains c ||
      (['?', ':', '-'].contains c && ends)

/-- Whether a colon or a number sign stands where it would end a plain scalar. -/
def hasInnerSign : List Char → Bool
  | a :: b :: rest =>
    (b == '#' && isSpacing a) ||
      (b == ':' && (match rest with | [] => true | c :: _ => isSpacing c)) ||
      hasInnerSign (b :: rest)
  | _ => false

/-- Whether characters have a place among those that are written in escapes only. -/
def hasSpecial (cs : List Char) : Bool :=
  cs.any fun c => !isPrintable c && c != '\t'

/-- Whether a text may be written plainly. -/
def allowsPlain (cs : List Char) : Bool :=
  let edge (c? : Option Char) : Bool :=
    match c? with
    | some c => c == ' ' || isAnyBreak c
    | none => false
  !(edge cs.head? || edge cs.getLast? || cs.any isAnyBreak || cs.contains '\t' || hasSpecial cs ||
    cs.take 3 == ['-', '-', '-'] || cs.take 3 == ['.', '.', '.'] || startsWithSign cs ||
    hasInnerSign cs)

/-- Whether a text may be written in single quotes. -/
def allowsSingle (cs : List Char) : Bool :=
  !(hasPair isAnyBreak (· == ' ') cs || hasPair (· == ' ') isAnyBreak cs || cs.contains '\t' ||
    hasSpecial cs)

/-- Whether a text may be written over several lines. -/
def allowsBlock (cs : List Char) : Bool :=
  !(cs.isEmpty || cs.getLast? == some ' ' || hasPair (· == ' ') isAnyBreak cs || hasSpecial cs)

/-- Whether a text is a number in base sixty: digits, and groups of up to two digits after colons. -/
def isBaseSixty (t : Text) : Bool :=
  let isDigit (b : UInt8) : Bool := 0x30 ≤ b && b ≤ 0x39
  let unsigned := match t with
    | 0x2B :: rest => rest
    | 0x2D :: rest => rest
    | _ => t
  let whole := unsigned.takeWhile (· != 0x2E)
  let fraction := (unsigned.drop whole.length).drop 1
  let isGroup (g : Text) : Bool :=
    match g with
    | [a] => isDigit a
    | [a, b] => 0x30 ≤ a && a ≤ 0x35 && isDigit b
    | _ => false
  fraction.all (fun b => isDigit b || b == 0x5F) &&
    match Text.splitOn 0x3A whole with
    | (a :: rest) :: group :: groups =>
      isDigit a && rest.all (fun b => isDigit b || b == 0x5F) && (group :: groups).all isGroup
    | _ => false

/-- Whether a text is a word that used to be a truth value. -/
def isOldBoolean (t : Text) : Bool :=
  ["y", "Y", "yes", "Yes", "YES", "on", "On", "ON", "n", "N", "no", "No", "NO", "off", "Off",
    "OFF"].map Text.ofString |>.contains t

/-- Whether a plain scalar would be read as this text. -/
def readsAsText (t : Text) : Bool :=
  Meaning.ofPlain true t == .text t && !isBaseSixty t && !isOldBoolean t

/-! ### Scalars -/

/-- The escape of a character in double quotes. -/
def escape (c : Char) : List Char :=
  let n := c.toNat
  let hexUpper (width : Nat) : List Char :=
    let digits := (Nat.toDigits 16 n).map Char.toUpper
    List.replicate (width - digits.length) '0' ++ digits
  match [(0x00, '0'), (0x07, 'a'), (0x08, 'b'), (0x09, 't'), (0x0A, 'n'), (0x0B, 'v'), (0x0C, 'f'),
    (0x0D, 'r'), (0x1B, 'e'), (0x22, '"'), (0x5C, '\\'), (0x85, 'N'), (0xA0, '_'), (0x2028, 'L'),
    (0x2029, 'P')].lookup n with
  | some letter => ['\\', letter]
  | none =>
    if n ≤ 0xFF then '\\' :: 'x' :: hexUpper 2
    else if n ≤ 0xFFFF then '\\' :: 'u' :: hexUpper 4
    else '\\' :: 'U' :: hexUpper 8

/-- A text in double quotes. -/
def doubleQuoted (cs : List Char) : List Char :=
  let body := cs.flatMap fun c =>
    if !isPrintable c || isAnyBreak c || c == '"' || c == '\\' then escape c else [c]
  '"' :: (body ++ ['"'])

/-- The text of lines with the lines after the first indented; `fresh` says that a line begins. -/
def indented (indent : Nat) (fresh : Bool) : List Char → List Char
  | [] => []
  | c :: rest =>
    if isAnyBreak c then c :: indented indent true rest
    else if fresh then List.replicate indent ' ' ++ c :: indented indent false rest
    else c :: indented indent false rest

/-- A text in single quotes. -/
def singleQuoted (indent : Nat) (cs : List Char) : List Char :=
  '\'' :: (indented indent false (cs.flatMap fun c => if c == '\'' then ['\'', '\''] else [c]) ++
    ['\''])

/-- How many spaces a level of layout is indented by. -/
def step : Nat := 4

/-- The head of a block scalar: the sign, the indentation if the text begins with white space, and
how it ends. -/
def blockSign (cs : List Char) : List Char :=
  let hint : List Char :=
    match cs with
    | c :: _ => if c == ' ' || isAnyBreak c then Nat.toDigits 10 step else []
    | [] => []
  let chomp : List Char :=
    match cs.reverse with
    | [] => ['-']
    | last :: before =>
      if !isAnyBreak last then ['-']
      else
        match before with
        | [] => ['+']
        | c :: _ => if isAnyBreak c then ['+'] else []
  '|' :: (hint ++ chomp)

/-- A text over several lines. A line end that begins it ends the line of its sign. -/
def blockText (indent : Nat) (cs : List Char) : List Char :=
  let startsFresh : Bool := match cs with
    | c :: _ => isAnyBreak c
    | [] => true
  blockSign cs ++ (if startsFresh then [] else ['\n']) ++ indented indent true cs

/-- Characters in the way that suits them. `plainly` says whether they may be plain. -/
def scalarText (indent : Nat) (plainly : Bool) (cs : List Char) : List Char :=
  if cs.contains '\n' then
    if allowsBlock cs then blockText indent cs else doubleQuoted cs
  else if plainly then
    if allowsPlain cs then cs
    else if allowsSingle cs then singleQuoted indent cs
    else doubleQuoted cs
  else doubleQuoted cs

/-- Base 64 in lines of seventy signs, if it is longer than one. -/
def binaryLines : Nat → Text → Text
  | 0, t => t
  | steps + 1, t => if t.isEmpty then [] else t.take 70 ++ 0x0A :: binaryLines steps (t.drop 70)

/-- A text as a scalar, with a tag if it is no string of characters. -/
def textScalar (indent : Nat) (t : Text) : Text :=
  if t.isValid then Text.ofChars (scalarText indent (readsAsText t) t.chars)
  else
    let signs := Base64.encode t
    let signs := if signs.length < 70 then signs else binaryLines signs.length signs
    Text.ofString "!!binary " ++ Text.ofChars (scalarText indent true (Text.chars signs))

/-! ### Records -/

/-- Ends a line, if it is not ended. -/
def endLine (t : Text) : Text :=
  match t.last? with
  | some c => if isAnyBreak c then t else t ++ [0x0A]
  | none => [0x0A]

/-- Spaces. -/
def spaces (n : Nat) : Text :=
  List.replicate n 0x20

/-- The column of what is inside a mapping at a column. -/
def nextStop (indent : Nat) : Nat :=
  step * ((indent + step) / step)

mutual

/-- A value with its line end, after a key in a mapping at a column. -/
def afterKey (indent : Nat) : Item → Text
  | .text t => 0x20 :: endLine (textScalar (nextStop indent) t)
  | .integer n => 0x20 :: endLine (Text.ofInt n)
  | .boolean b => 0x20 :: endLine (Text.ofString (if b then "true" else "false"))
  | .list [] => Text.ofString " []\n"
  | .list (item :: rest) => 0x0A :: listItems (nextStop indent) (item :: rest)
  | .record [] => Text.ofString " \x7b\x7d\n"
  | .record ((name, item) :: rest) =>
    0x0A :: recordFields (nextStop indent) true ((name, item) :: rest)

/-- A value with its line end, after the dash of a list at a column. -/
def afterDash (indent : Nat) : Item → Text
  | .text t => endLine (textScalar (indent + 2) t)
  | .integer n => endLine (Text.ofInt n)
  | .boolean b => endLine (Text.ofString (if b then "true" else "false"))
  | .list [] => Text.ofString "[]\n"
  | .list (item :: rest) => (listItems (indent + 2) (item :: rest)).drop (indent + 2)
  | .record [] => Text.ofString "\x7b\x7d\n"
  | .record ((name, item) :: rest) => recordFields (indent + 2) false ((name, item) :: rest)

/-- The items of a list at a column. -/
def listItems (indent : Nat) : List Item → Text
  | [] => []
  | item :: rest =>
    spaces indent ++ Text.ofString "- " ++ afterDash indent item ++ listItems indent rest

/-- The fields of a record at a column; the first may stand on a line that has begun. -/
def recordFields (indent : Nat) (fresh : Bool) : List (Text × Item) → Text
  | [] => []
  | (name, item) :: rest =>
    (if fresh then spaces indent else []) ++ name ++ 0x3A :: afterKey indent item ++
      recordFields indent true rest

end

/-- A record as a document. -/
def write (r : Record) : Text :=
  recordFields 0 true r

end Yaml

end Phrasebook
