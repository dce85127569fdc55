import Phrasebook.Cli.Flag

/-!
# Reading the command line

The command is the first argument that is neither a flag nor the argument of one. The others are then
read with the flags of that command: flags may stand anywhere before `--`, letters of flags may be
joined, and an argument may follow a flag after an equals sign or as the next argument.
-/

namespace Phrasebook

namespace Cli

/-- Why a command line cannot be read. -/
inductive UsageError where
  /-- There is no such command; some are like it. -/
  | unknownCommand (name : Text) (like : List Text)
  /-- A flag is malformed. -/
  | badFlag (text : Text)
  /-- There is no such flag. -/
  | unknownFlag (name : Text)
  /-- There is no flag of this letter. -/
  | unknownLetter (letter : UInt8) (group : Text)
  /-- A flag has no argument. -/
  | noArgument (text : Text)
  /-- A flag given by its letter has no argument. -/
  | noArgumentAfter (letter : UInt8) (group : Text)
  /-- The argument of a flag cannot be used. -/
  | badArgument (text : Text) (flag : Flag) (fault : ArgumentFault)
  /-- There are fewer arguments than needed. -/
  | tooFew (needed given : Nat)
  /-- There are more or fewer arguments than needed. -/
  | wrongNumber (needed given : Nat)
  deriving DecidableEq, Repr

/-- A letter between single quotes. -/
def quotedLetter (b : UInt8) : Text :=
  let c := Char.ofNat b.toNat
  let inner :=
    if c = '\'' then Text.ofString "\\'"
    else if c = '"' then Text.ofString "\""
    else Text.quotedChar c
  0x27 :: (inner ++ [0x27])

namespace UsageError

/-- The error in words. -/
def message : UsageError → Text
  | .unknownCommand name like =>
    Text.ofString "unknown command " ++ name.quoted ++ Text.ofString " for \"skpat\"" ++
      if like.isEmpty then []
      else
        Text.ofString "\n\nDid you mean this?\n" ++ like.flatMap fun t => 0x09 :: (t ++ [0x0A])
  | .badFlag t => Text.ofString "bad flag syntax: " ++ t
  | .unknownFlag name => Text.ofString "unknown flag: --" ++ name
  | .unknownLetter letter group =>
    Text.ofString "unknown shorthand flag: " ++ quotedLetter letter ++ Text.ofString " in -" ++ group
  | .noArgument t => Text.ofString "flag needs an argument: " ++ t
  | .noArgumentAfter letter group =>
    Text.ofString "flag needs an argument: " ++ quotedLetter letter ++ Text.ofString " in -" ++ group
  | .badArgument t flag fault =>
    Text.ofString "invalid argument " ++ t.quoted ++ Text.ofString " for " ++ flag.shown.quoted ++
      Text.ofString " flag: " ++ fault.message
  | .tooFew needed given =>
    Text.ofString "requires at least " ++ Text.ofNat needed ++
      Text.ofString " arg(s), only received " ++ Text.ofNat given
  | .wrongNumber needed given =>
    Text.ofString "accepts " ++ Text.ofNat needed ++ Text.ofString " arg(s), received " ++
      Text.ofNat given

end UsageError

/-! ### Finding the command -/

/-- Whether an argument begins with a dash. -/
def isDashed (t : Text) : Bool :=
  t.head? == some 0x2D

/-- Whether an argument is a flag whose own argument is the next one, among some flags. Flags that
are not known are taken to need one. -/
def takesNext (flags : List Flag) (t : Text) : Bool :=
  if t.contains 0x3D then false
  else
    match t with
    | 0x2D :: 0x2D :: name => !(flags.any fun f => f.name == name && f.isSwitch)
    | [0x2D, letter] => !(flags.any fun f => f.letter? == some letter && f.isSwitch)
    | _ => false

/-- The flags known while the command is looked for. -/
def knownFlags : List Flag :=
  [.config, .timeout, .verbose]

/-- The first argument that is neither a flag nor the argument of one. -/
def firstWord : List Text → Option Text
  | [] => none
  | t :: rest =>
    if t = Text.ofString "--" then none
    else if takesNext knownFlags t then
      match rest with
      | _ :: next :: rest => firstWord (next :: rest)
      | _ => none
    else if t.isEmpty ∨ isDashed t then firstWord rest
    else some t

/-- The arguments without the first one that is a given word and not the argument of a flag. -/
def dropWord (word : Text) : List Text → List Text
  | [] => []
  | t :: rest =>
    if t = Text.ofString "--" then t :: rest
    else if takesNext knownFlags t then
      match rest with
      | next :: rest => t :: next :: dropWord word rest
      | [] => [t]
    else if t = word ∧ !isDashed t then rest
    else t :: dropWord word rest

/-- A row of a table of edit distances: the distances of a word to the starts of another, from those
of the word without its last byte. -/
def distanceRow (b : UInt8) : Text → List Nat → Nat → List Nat
  | [], _, left => [left]
  | c :: rest, above, left =>
    let diagonal := above.headD 0
    let up := (above.drop 1).headD 0
    let here := if b = c then diagonal else min (min up left) diagonal + 1
    left :: distanceRow b rest (above.drop 1) here

/-- The number of bytes to change, add or drop to make one word of another. -/
def distance (s t : Text) : Nat :=
  let start := List.range (t.length + 1)
  let rows := s.foldl (fun row b => distanceRow b t row (row.headD 0 + 1)) start
  rows.getLast?.getD 0

/-- The commands whose names are like a word: by at most two changes, or since they begin with it. -/
def like (word : Text) : List Text :=
  (Command.suggested.map Command.name).filter fun name =>
    distance word.lower name.lower ≤ 2 || word.lower.isPrefixOf name.lower

/-! ### Reading flags -/

/-- A command line: the options and the other arguments. -/
structure Line where
  /-- The options. -/
  options : Options := {}
  /-- The other arguments. -/
  arguments : List Text := []

/-- Sets the option of a flag. -/
def setOption (o : Options) (f : Flag) (t : Text) : Except UsageError Options :=
  match o.set f t with
  | .ok o => .ok o
  | .error fault => .error (.badArgument t f fault)

/-- Reads a flag given by its name. Gives the options, and whether the next argument is used up. -/
def readNamed (flags : List Flag) (o : Options) (t : Text) (next : Option Text) :
    Except UsageError (Options × Bool) :=
  let body := t.drop 2
  if body.head? = some 0x2D ∨ body.head? = some 0x3D then .error (.badFlag t)
  else
    let name := body.takeWhile (· != 0x3D)
    match flags.find? fun f => f.name == name with
    | none => .error (.unknownFlag name)
    | some f =>
      if name.length < body.length then
        (setOption o f (body.drop (name.length + 1))).map fun o => (o, false)
      else if f.isSwitch then (setOption o f (Text.ofString "true")).map fun o => (o, false)
      else
        match next with
        | some t => (setOption o f t).map fun o => (o, true)
        | none => .error (.noArgument t)

/-- Reads flags given by their letters. Gives the options, and whether the next argument is used
up. -/
def readLetters (flags : List Flag) (next : Option Text) (o : Options) :
    Text → Except UsageError (Options × Bool)
  | [] => .ok (o, false)
  | letter :: rest =>
    let group := letter :: rest
    if (Text.ofString "test.").isPrefixOf group then .ok (o, false)
    else
      match flags.find? fun f => f.letter? == some letter with
      | none => .error (.unknownLetter letter group)
      | some f =>
        match rest with
        | 0x3D :: c :: value => (setOption o f (c :: value)).map fun o => (o, false)
        | _ =>
          if f.isSwitch then
            match setOption o f (Text.ofString "true") with
            | .ok o => readLetters flags next o rest
            | .error e => .error e
          else if !rest.isEmpty then (setOption o f rest).map fun o => (o, false)
          else
            match next with
            | some t => (setOption o f t).map fun o => (o, true)
            | none => .error (.noArgumentAfter letter group)

/-- Reads the arguments of a command. -/
def readArguments (flags : List Flag) (line : Line) : List Text → Except UsageError Line
  | [] => .ok line
  | t :: rest =>
    if t.length < 2 ∨ !isDashed t then
      readArguments flags { line with arguments := line.arguments ++ [t] } rest
    else if t = Text.ofString "--" then .ok { line with arguments := line.arguments ++ rest }
    else
      let read :=
        if (t.drop 1).head? = some 0x2D then readNamed flags line.options t rest.head?
        else readLetters flags rest.head? line.options (t.drop 1)
      match read with
      | .error e => .error e
      | .ok (o, false) => readArguments flags { line with options := o } rest
      | .ok (o, true) =>
        match rest with
        | _ :: rest => readArguments flags { line with options := o } rest
        | [] => .ok { line with options := o }

/-- Whether the number of arguments suits a command. -/
def checkNumber (c : Option Command) (given : Nat) : Except UsageError Unit :=
  match c with
  | some .compile | some .parse => if given = 0 then .error (.tooFew 1 given) else .ok ()
  | some .matchOne => if given = 2 then .ok () else .error (.wrongNumber 2 given)
  | _ => .ok ()

/-- The command of a command line with its options and arguments. Without a command, or when help is
asked for, the command is `none`. -/
def readLine (args : List Text) : Except UsageError (Option Command × Line) := do
  let word := firstWord args
  let command := word.bind Command.ofName?
  match word, command with
  | some word, none => throw (.unknownCommand word (like word))
  | _, _ =>
    let rest := match word with
      | some word => dropWord word args
      | none => args
    let line ← readArguments (Flag.ofCommand command) {} rest
    if line.options.help then return (none, line)
    checkNumber command line.arguments.length
    return (command, line)

end Cli

end Phrasebook
