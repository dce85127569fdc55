import Phrasebook.Toml.Quoted
import Phrasebook.Toml.Value

/-!
# Reading expressions

A document is read expression by expression, each on lines of its own. What was read before an error
counts: the expressions are given in order, together with whether the document could be read to its
end.
-/

namespace Phrasebook

namespace Toml

/-- A reader of something at the start of a text, with what is left. -/
abbrev Read (α : Type) := Text → Option (α × Text)

/-! ### White space and comments -/

/-- What follows blanks. -/
def passBlanks (t : Text) : Text :=
  t.dropWhile fun b => b == 0x20 || b == 0x09

/-- What follows a byte that has to stand here. -/
def pass? (b : UInt8) : Text → Option Text
  | a :: rest => if a = b then some rest else none
  | [] => none

/-- What follows a line end. -/
def passBreak? : Text → Option Text
  | 0x0A :: rest => some rest
  | 0x0D :: 0x0A :: rest => some rest
  | _ => none

/-- What follows a comment: the end of its line, or nothing. -/
def passComment? (t : Text) : Option Text :=
  let body := t.takeWhile fun b => b != 0x0A && b != 0x0D
  let rest := t.drop body.length
  if isClean body then
    match rest with
    | 0x0D :: 0x0A :: rest => some (0x0A :: rest)
    | 0x0D :: _ => none
    | _ => some rest
  else none

/-- What follows a comment, if one begins here. -/
def passOptionalComment? (t : Text) : Option Text :=
  if t.head? = some 0x23 then passComment? t else some t

/-- What follows blanks, comments and line ends; each line takes one step. -/
def passGap? : Nat → Text → Option Text
  | 0, t => some t
  | steps + 1, t =>
    match passOptionalComment? (passBlanks t) with
    | none => none
    | some t =>
      match t with
      | 0x0A :: rest => passGap? steps rest
      | 0x0D :: _ =>
        match passBreak? t with
        | some rest => passGap? steps rest
        | none => none
      | _ => some t

/-! ### Keys -/

/-- Whether a byte may stand in a key without quotes. -/
def isBare (b : UInt8) : Bool :=
  let c := Char.ofNat b.toNat
  c.isAlphanum || c == '-' || c == '_'

/-- A name in a key. -/
def name? : Read Text
  | [] => none
  | b :: rest =>
    if b = singleQuote ∨ b = doubleQuote then lineText? b rest
    else
      let name := (b :: rest).takeWhile isBare
      if name.isEmpty then none else some (name, (b :: rest).drop name.length)

/-- A key: names with points between them. -/
def key? : Nat → Read Key
  | 0, _ => none
  | steps + 1, t =>
    match name? t with
    | none => none
    | some (name, rest) =>
      match passBlanks rest with
      | 0x2E :: rest => (key? steps (passBlanks rest)).map fun (key, rest) => (name :: key, rest)
      | rest => some ([name], rest)

/-! ### Numbers and dates -/

/-- Whether a byte is a decimal digit. -/
def isDigit (b : UInt8) : Bool :=
  0x30 ≤ b && b ≤ 0x39

/-- Whether a byte may stand in an integer of the base that a letter after a zero names. -/
def inBase (letter b : UInt8) : Bool :=
  b == 0x5F ||
    if letter = 0x78 then
      isDigit b || (0x61 ≤ b && b ≤ 0x66) || (0x41 ≤ b && b ≤ 0x46)
    else if letter = 0x6F then 0x30 ≤ b && b ≤ 0x37
    else b == 0x30 || b == 0x31

/-- Reads on in a decimal number: what was read, and whether it has a point or an exponent. -/
def decimalFrom (written : Text) (isFloat : Bool) : Read Value
  | [] => some (if isFloat then .float else .integer written.reverse, [])
  | b :: rest =>
    if isDigit b ∨ b = 0x2B ∨ b = 0x2D ∨ b = 0x5F then decimalFrom (b :: written) isFloat rest
    else if b = 0x2E ∨ b = 0x65 ∨ b = 0x45 then decimalFrom (b :: written) true rest
    else if b = 0x69 ∨ b = 0x6E then
      match Text.after? (Text.ofString "inf") (b :: rest), Text.after? (Text.ofString "nan") (b :: rest)
      with
      | some rest, _ => some (.float, rest)
      | none, some rest => some (.float, rest)
      | none, none => none
    else if written.isEmpty then none
    else some (if isFloat then .float else .integer written.reverse, b :: rest)

/-- A number. A zero that no point, exponent or base follows stands by itself. -/
def number? (t : Text) : Option (Value × Text) :=
  match t with
  | 0x30 :: c :: _ :: _ =>
    if c = 0x2E ∨ c = 0x65 ∨ c = 0x45 then decimalFrom [] false t
    else if c = 0x78 ∨ c = 0x6F ∨ c = 0x62 then
      let digits := (t.drop 2).takeWhile (inBase c)
      some (.integer (t.take 2 ++ digits), t.drop (2 + digits.length))
    else some (.integer [0x30], t.drop 1)
  | [] => none
  | _ => decimalFrom [] false t

/-- What was seen of a date or time. -/
structure MomentSeen where
  /-- A sign of a date. -/
  date : Bool := false
  /-- A sign of a time. -/
  time : Bool := false
  /-- A sign of a time zone. -/
  zone : Bool := false
  /-- A blank. -/
  blank : Bool := false

/-- The form that was seen. -/
def MomentSeen.form (s : MomentSeen) : MomentForm :=
  if s.time then
    if s.date then (if s.zone then .zoned else .dateTime) else .time
  else .date

/-- Reads on in a date or time, of which `count` bytes were read. One blank may stand between the
two, before a digit. -/
def momentFrom (written : Text) (s : MomentSeen) : Text → Value × Text
  | [] => (.moment s.form written.reverse, [])
  | b :: rest =>
    if isDigit b then momentFrom (b :: written) s rest
    else if b = 0x2D then
      momentFrom (b :: written) { s with date := true, zone := s.zone || 8 ≤ written.length } rest
    else if b = 0x54 ∨ b = 0x74 ∨ b = 0x3A ∨ b = 0x2E then
      momentFrom (b :: written) { s with time := true } rest
    else if b = 0x2B ∨ b = 0x5A ∨ b = 0x7A then
      momentFrom (b :: written) { s with zone := true } rest
    else
      match rest with
      | c :: d :: rest =>
        -- The two bytes after the blank belong to it whatever they are.
        if b = 0x20 ∧ !s.blank ∧ isDigit c then
          momentFrom (d :: c :: b :: written) { s with time := true, blank := true } rest
        else (.moment s.form written.reverse, b :: c :: d :: rest)
      | [c] =>
        if b = 0x20 ∧ !s.blank ∧ isDigit c then
          (.moment { s with time := true }.form (c :: b :: written).reverse, [])
        else (.moment s.form written.reverse, [b, c])
      | [] => (.moment s.form written.reverse, [b])

/-- Whether a date or time begins here: a time after two digits, a date after four. -/
def startsMoment (t : Text) : Bool :=
  match t.takeWhile isDigit, (t.dropWhile isDigit).head? with
  | [_, _], some 0x3A => true
  | [_, _, _, _], some 0x2D => true
  | _, _ => false

/-! ### Values -/

mutual

/-- A value. -/
def value? : Nat → Read Value
  | 0, _ => none
  | _, [] => none
  | steps + 1, b :: rest =>
    if b = doubleQuote ∨ b = singleQuote then
      (text? b (b :: rest)).map fun (t, rest) => (.text t, rest)
    else if b = 0x74 then
      (Text.after? (Text.ofString "true") (b :: rest)).map fun rest => (.boolean true, rest)
    else if b = 0x66 then
      (Text.after? (Text.ofString "false") (b :: rest)).map fun rest => (.boolean false, rest)
    else if b = 0x5B then
      (items? steps true rest).map fun (items, rest) => (.array items, rest)
    else if b = 0x7B then
      (entries? steps true rest).map fun (entries, rest) => (.table entries, rest)
    else if startsMoment (b :: rest) then some (momentFrom [] {} (b :: rest))
    else number? (b :: rest)

/-- The items of an array up to its end. A comma may follow the last one. -/
def items? : Nat → (isFirst : Bool) → Read (List Value)
  | 0, _, _ => none
  | steps + 1, isFirst, t =>
    let item (t : Text) : Option (List Value × Text) :=
      match value? steps t with
      | none => none
      | some (value, rest) =>
        (items? steps false rest).map fun (values, rest) => (value :: values, rest)
    match passGap? t.length t with
    | some (0x5D :: rest) => some ([], rest)
    | some (0x2C :: rest) =>
      if isFirst then none
      else
        match passGap? rest.length rest with
        | some (0x5D :: rest) => some ([], rest)
        | some rest => item rest
        | none => none
    | some rest => if isFirst then item rest else none
    | none => none

/-- The entries of a table within a line up to its end. -/
def entries? : Nat → (isFirst : Bool) → Read (List (Key × Value))
  | 0, _, _ => none
  | steps + 1, isFirst, t =>
    let entry (t : Text) : Option (List (Key × Value) × Text) :=
      match keyValue? steps t with
      | none => none
      | some (e, rest) => (entries? steps false rest).map fun (es, rest) => (e :: es, rest)
    match passBlanks t with
    | 0x7D :: rest => some ([], rest)
    | 0x2C :: rest => if isFirst then none else entry (passBlanks rest)
    | rest => if isFirst then entry rest else none

/-- A key with its value. -/
def keyValue? : Nat → Read (Key × Value)
  | 0, _ => none
  | steps + 1, t =>
    match key? t.length t with
    | none => none
    | some (key, rest) =>
      match pass? 0x3D (passBlanks rest) with
      | none => none
      | some rest => (value? steps (passBlanks rest)).map fun (value, rest) => ((key, value), rest)

end

/-! ### Expressions -/

/-- A header, from its first bracket on. -/
def header? (t : Text) : Option (Expression × Text) :=
  let isArray := (t.drop 1).head? = some 0x5B
  let t := passBlanks (t.drop (if isArray then 2 else 1))
  match key? t.length t with
  | none => none
  | some (key, rest) =>
    match pass? 0x5D (passBlanks rest) with
    | none => none
    | some rest =>
      if isArray then (pass? 0x5D rest).map fun rest => (.arrayTable key, rest)
      else some (.table key, rest)

/-- What stands on a line: an expression, or nothing but blanks and a comment. -/
def line? (t : Text) : Option (Option Expression × Text) :=
  match passBlanks t with
  | [] => some (none, [])
  | b :: rest =>
    if b = 0x23 then (passComment? (b :: rest)).map fun rest => (none, rest)
    else if b = 0x0A ∨ b = 0x0D then some (none, b :: rest)
    else
      let read : Option (Expression × Text) :=
        if b = 0x5B then header? (b :: rest)
        else
          (keyValue? (2 * rest.length + 4) (b :: rest)).map fun ((key, value), rest) =>
            (.entry key value, rest)
      match read with
      | none => none
      | some (e, rest) => (passOptionalComment? (passBlanks rest)).map fun rest => (some e, rest)

/-- The expressions of a document that can be read, and whether it could be read to its end. -/
structure Document where
  /-- The expressions. -/
  expressions : List Expression
  /-- Whether that is all of the document. -/
  isComplete : Bool

/-- Reads lines, the first of which begins here. -/
def lines : Nat → Text → Document
  | 0, _ => ⟨[], true⟩
  | steps + 1, t =>
    if t.isEmpty then ⟨[], true⟩
    else
      match line? t with
      | none => ⟨[], false⟩
      | some (e, rest) =>
        let after : Document :=
          if rest.isEmpty then ⟨[], true⟩
          else
            match passBreak? rest with
            | some rest => lines steps rest
            | none => ⟨[], false⟩
        ⟨e.toList ++ after.expressions, after.isComplete⟩

/-- The expressions of a document. -/
def Document.ofText (t : Text) : Document :=
  lines (t.length + 1) t

end Toml

end Phrasebook
