import Postbox.Bytes

/-!
# Command-line arguments

A command line is read from left to right.  An argument that begins with a dash is an option: a
switch stands alone, any other option has a value, behind an equals sign or as the next argument.
All other arguments are words, and behind two dashes all arguments are.  A word may begin a command,
which reads what follows by a grammar of its own.
-/

namespace Postbox

/-- Why a command line cannot be read. -/
inductive UsageError where
  | unknownOption (argument : Bytes)
  | unexpectedWord (argument : Bytes)
  | unexpectedValue (option : String)
  | missingValue (option : String)
  | invalidValue (option : String) (value : Bytes)
  | invalidWord (argument : Bytes)
  | repeated (option : String)
  | conflict (first second : String)
  | missingWord (name : String)
  | missingCommand
  | unknownCommand (argument : Bytes)
deriving DecidableEq, Repr

/-- The options and words that can be given. -/
structure Grammar where
  /-- Switches, by name and letter. -/
  switches : List (String × Option Char) := []
  /-- Switches that end the reading at once. -/
  stops : List (String × Option Char) := []
  /-- Options with a value, and which values are good. -/
  options : List (String × (Bytes → Bool)) := []
  /-- Which words are good, place by place. -/
  words : List (Bytes → Bool) := []
  /-- The words that begin a command. -/
  commands : List String := []

/-- The options and words that were given. -/
structure Given where
  switches : List String := []
  values : List (String × Bytes) := []
  words : List Bytes := []
deriving DecidableEq, Repr

/-- What reading a command line comes to. -/
inductive Reading where
  | complete (given : Given)
  /-- A switch ended the reading. -/
  | stopped (switch : String)
  /-- A command begins; the rest is for its own grammar. -/
  | command (given : Given) (name : String) (rest : List Bytes)
deriving DecidableEq, Repr

namespace Given

/-- The switch was given. -/
def has (given : Given) (switch : String) : Bool :=
  given.switches.contains switch

/-- The value that was given for an option. -/
def value? (given : Given) (option : String) : Option Bytes :=
  given.values.lookup option

/-- The value that was given for an option, as a text. -/
def text? (given : Given) (option : String) : Option String :=
  (given.value? option).bind Bytes.text?

end Given

namespace Grammar

/-- The dash. -/
def dash : UInt8 := 0x2D

/-- What kind of argument it is, seen alone. -/
inductive Argument where
  /-- Two dashes. -/
  | divider
  /-- The name of an option, and what stands behind an equals sign. -/
  | long (name : Bytes) (value? : Option Bytes)
  /-- The letters of switches. -/
  | letters (letters : Bytes)
  | word
deriving DecidableEq

/-- Tell what kind of argument it is.  A single dash is a word. -/
def Argument.of (argument : Bytes) : Argument :=
  match argument with
  | 0x2D :: 0x2D :: [] => divider
  | 0x2D :: 0x2D :: rest =>
    let name := rest.takeWhile (· != 0x3D)
    if name.length = rest.length then long name none
    else long name (some (rest.drop (name.length + 1)))
  | 0x2D :: c :: rest => letters (c :: rest)
  | _ => word

/-- Note a switch. -/
def giveSwitch (given : Given) (name : String) : Except UsageError Given :=
  if given.has name then .error (.repeated name)
  else .ok { given with switches := given.switches ++ [name] }

/-- Note the value of an option. -/
def giveValue (grammar : Grammar) (given : Given) (name : String) (value : Bytes) :
    Except UsageError Given :=
  if (given.value? name).isSome then .error (.repeated name)
  else if (grammar.options.lookup name).any (· value) then
    .ok { given with values := given.values ++ [(name, value)] }
  else .error (.invalidValue name value)

/-- Note a word. -/
def giveWord (grammar : Grammar) (given : Given) (word : Bytes) : Except UsageError Given :=
  match grammar.words[given.words.length]? with
  | none => .error (.unexpectedWord word)
  | some isGood =>
    if isGood word then .ok { given with words := given.words ++ [word] }
    else .error (.invalidWord word)

/-- Read switches by their letters, up to one that ends the reading; what stands behind that one may
be anything. -/
def readLetters (grammar : Grammar) (argument : Bytes) (given : Given) :
    List Bytes.Piece → Except UsageError (Given × Option String)
  | [] => .ok (given, none)
  | .broken _ :: _ => .error (.unknownOption argument)
  | .character letter :: rest =>
    match grammar.stops.find? (·.2 == some letter),
      grammar.switches.find? (·.2 == some letter) with
    | some (name, _), _ => .ok (given, some name)
    | none, some (name, _) => do
      grammar.readLetters argument (← giveSwitch given name) rest
    | none, none => .error (.unknownOption argument)

/-- Read arguments, all of them words. -/
def readWords (grammar : Grammar) (given : Given) : List Bytes → Except UsageError Reading
  | [] => .ok (.complete given)
  | word :: rest => do grammar.readWords (← grammar.giveWord given word) rest

/-- Read arguments after those noted.  An option may still wait for its value; no option can be the
value of another. -/
def readFrom (grammar : Grammar) (given : Given) (waiting? : Option String) :
    List Bytes → Except UsageError Reading
  | [] => match waiting? with
    | some option => .error (.missingValue option)
    | none => .ok (.complete given)
  | argument :: rest =>
    match waiting?, Argument.of argument with
    | some option, .word => do
      grammar.readFrom (← grammar.giveValue given option argument) none rest
    | some option, _ => .error (.missingValue option)
    | none, .divider => grammar.readWords given rest
    | none, .long name value? =>
      match name.text? with
      | none => .error (.unknownOption argument)
      | some name =>
        if (grammar.options.lookup name).isSome then
          match value? with
          | some value => do grammar.readFrom (← grammar.giveValue given name value) none rest
          | none => grammar.readFrom given (some name) rest
        else if (grammar.switches.lookup name).isSome || (grammar.stops.lookup name).isSome then
          if value?.isSome then .error (.unexpectedValue name)
          else if (grammar.stops.lookup name).isSome then .ok (.stopped name)
          else do grammar.readFrom (← giveSwitch given name) none rest
        else .error (.unknownOption argument)
    | none, .letters letters => do
      match ← grammar.readLetters argument given letters.pieces with
      | (_, some stop) => .ok (.stopped stop)
      | (given, none) => grammar.readFrom given none rest
    | none, .word =>
      match argument.text?.filter grammar.commands.contains with
      | some name => .ok (.command given name rest)
      | none => do grammar.readFrom (← grammar.giveWord given argument) none rest

/-- Read a command line. -/
def read (grammar : Grammar) (arguments : List Bytes) : Except UsageError Reading :=
  grammar.readFrom {} none arguments

end Grammar

end Postbox
