import Phrasebook.Number.Duration
import Phrasebook.Number.Integer

/-!
# Commands, flags and options

The commands of the program, the flags that each of them takes, and the options that flags set. A
flag for a truth value needs no argument.
-/

namespace Phrasebook

namespace Cli

/-- A command. -/
inductive Command where
  /-- Writes a definition file to start from. -/
  | init
  /-- Compiles patterns and shows their trees. -/
  | compile
  /-- Matches a pattern with an input. -/
  | matchOne
  /-- Parses inputs. -/
  | parse
  /-- Runs the cases of definition files. -/
  | check
  /-- Runs cases again whenever the definition file changes. -/
  | watch
  /-- Explains a command. -/
  | help
  /-- Writes scripts that complete command lines. -/
  | completion
  deriving DecidableEq, Repr

namespace Command

/-- The name of a command. -/
def name : Command → Text
  | .init => Text.ofString "init"
  | .compile => Text.ofString "compile"
  | .matchOne => Text.ofString "match"
  | .parse => Text.ofString "parse"
  | .check => Text.ofString "check"
  | .watch => Text.ofString "watch"
  | .help => Text.ofString "help"
  | .completion => Text.ofString "completion"

/-- All commands. -/
def all : List Command :=
  [.init, .compile, .matchOne, .parse, .check, .watch, .help, .completion]

/-- The command of a name. -/
def ofName? (t : Text) : Option Command :=
  all.find? fun c => c.name == t

/-- The commands that are suggested for a name that is none. -/
def suggested : List Command :=
  all.filter (· != .help)

end Command

/-- A flag. -/
inductive Flag where
  /-- The definition file. -/
  | config
  /-- The time that parsing may take. -/
  | timeout
  /-- Whether to say more. -/
  | verbose
  /-- Whether to explain the command instead. -/
  | help
  /-- Where in the input to match. -/
  | offset
  /-- Whether to answer in JSON. -/
  | json
  deriving DecidableEq, Repr

namespace Flag

/-- The name of a flag. -/
def name : Flag → Text
  | .config => Text.ofString "config"
  | .timeout => Text.ofString "timeout"
  | .verbose => Text.ofString "verbose"
  | .help => Text.ofString "help"
  | .offset => Text.ofString "offset"
  | .json => Text.ofString "json"

/-- The letter of a flag. -/
def letter? : Flag → Option UInt8
  | .config => some 0x63
  | .verbose => some 0x76
  | .help => some 0x68
  | _ => none

/-- Whether a flag stands for a truth value. -/
def isSwitch : Flag → Bool
  | .verbose | .help | .json => true
  | _ => false

/-- The flags of a command, or of the program itself. -/
def ofCommand (c : Option Command) : List Flag :=
  [.config, .timeout, .verbose, .help] ++ if c = some .matchOne then [.offset, .json] else []

/-- How messages show a flag. -/
def shown (f : Flag) : Text :=
  (match f.letter? with
    | some b => 0x2D :: b :: Text.ofString ", "
    | none => []) ++ Text.ofString "--" ++ f.name

end Flag

/-- What flags set. -/
structure Options where
  /-- The definition file. -/
  config : Text := Text.ofString ".skpat.yaml"
  /-- The time that parsing may take, in nanoseconds. -/
  timeout : Int := 300000000000
  /-- Whether to say more. -/
  verbose : Bool := false
  /-- Whether to explain the command instead. -/
  help : Bool := false
  /-- Where in the input to match. -/
  offset : Int := 0
  /-- Whether to answer in JSON. -/
  json : Bool := false
  deriving DecidableEq, Repr

/-- Why the argument of a flag cannot be used. -/
inductive ArgumentFault where
  /-- It is no truth value. -/
  | noBoolean (text : Text)
  /-- It is no integer. -/
  | noInteger (text : Text)
  /-- It is an integer of more than 64 bits. -/
  | outOfRange (text : Text)
  /-- It is no duration. -/
  | noDuration (e : Duration.Error)
  deriving DecidableEq, Repr

namespace ArgumentFault

/-- The fault in words. -/
def message : ArgumentFault → Text
  | .noBoolean t =>
    Text.ofString "strconv.ParseBool: parsing " ++ t.quoted ++ Text.ofString ": invalid syntax"
  | .noInteger t =>
    Text.ofString "strconv.ParseInt: parsing " ++ t.quoted ++ Text.ofString ": invalid syntax"
  | .outOfRange t =>
    Text.ofString "strconv.ParseInt: parsing " ++ t.quoted ++ Text.ofString ": value out of range"
  | .noDuration e => e.message

end ArgumentFault

/-- Reads a truth value. -/
def readBoolean (t : Text) : Except ArgumentFault Bool :=
  let among (words : List String) : Bool := (words.map Text.ofString).contains t
  if among ["1", "t", "T", "true", "TRUE", "True"] then .ok true
  else if among ["0", "f", "F", "false", "FALSE", "False"] then .ok false
  else .error (.noBoolean t)

/-- Whether every underscore stands between two digits; `afterDigit` says what stands before, the
sign of a base counting as a digit. -/
def underscoresPart (isHex afterDigit : Bool) : Text → Bool
  | [] => true
  | b :: rest =>
    let isDigit (b : UInt8) : Bool :=
      match Integer.digit? b with
      | some d => d < (if isHex then 16 else 10)
      | none => false
    if b = 0x5F then
      match rest with
      | c :: _ => afterDigit && isDigit c && underscoresPart isHex false rest
      | [] => false
    else underscoresPart isHex (isDigit b) rest

/-- Reads the digits of an integer from left to right, passing over underscores. The first digit that
is out of place, or at which 64 bits are not enough, decides. -/
def readDigits (whole : Text) (base value : Nat) : Text → Except ArgumentFault Nat
  | [] => .ok value
  | b :: rest =>
    if b = 0x5F then readDigits whole base value rest
    else
      match Integer.digit? b with
      | none => .error (.noInteger whole)
      | some d =>
        if base ≤ d then .error (.noInteger whole)
        else if Nat.pow 2 64 ≤ value * base + d then .error (.outOfRange whole)
        else readDigits whole base (value * base + d) rest

/-- Reads an integer, whose start may name its base and whose digits may be parted by underscores. -/
def readInteger (t : Text) : Except ArgumentFault Int :=
  let (negative, unsigned) : Bool × Text := match t with
    | 0x2D :: rest => (true, rest)
    | 0x2B :: rest => (false, rest)
    | _ => (false, t)
  let (base, marked, digits) : Nat × Bool × Text := match unsigned with
    | 0x30 :: c :: d :: rest =>
      if c = 0x62 ∨ c = 0x42 then (2, true, d :: rest)
      else if c = 0x6F ∨ c = 0x4F then (8, true, d :: rest)
      else if c = 0x78 ∨ c = 0x58 then (16, true, d :: rest)
      else (8, false, c :: d :: rest)
    | 0x30 :: rest => (8, false, rest)
    | _ => (10, false, unsigned)
  if unsigned.isEmpty then .error (.noInteger t)
  else
    match readDigits t base 0 digits with
    | .error e => .error e
    | .ok n =>
      let parted :=
        if marked then underscoresPart (base = 16) true digits
        else underscoresPart false false unsigned
      if !parted then .error (.noInteger t)
      else
        let n := Integer.withSign negative n
        if Integer.fits n then .ok n else .error (.outOfRange t)

/-- Sets an option from the argument of its flag. -/
def Options.set (o : Options) (f : Flag) (t : Text) : Except ArgumentFault Options :=
  match f with
  | .config => .ok { o with config := t }
  | .timeout =>
    match Duration.ofText t with
    | .ok d => .ok { o with timeout := d }
    | .error e => .error (.noDuration e)
  | .verbose => (readBoolean t).map fun b => { o with verbose := b }
  | .help => (readBoolean t).map fun b => { o with help := b }
  | .offset => (readInteger t).map fun n => { o with offset := n }
  | .json => (readBoolean t).map fun b => { o with json := b }

end Cli

end Phrasebook
