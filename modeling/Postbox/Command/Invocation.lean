import Postbox.Command.Arguments
import Postbox.Mailbox.Order
import Postbox.Number.Whole
import Postbox.Path

/-!
# Invocations

What a command line asks for: one of four commands, at a directory and with a settings file, or
only to be told about the program.
-/

namespace Postbox

/-- Where the body of a message comes from. -/
inductive BodySource where
  | text (body : String)
  | input
  /-- The command line does not say. -/
  | unstated
deriving DecidableEq, Repr

/-- What to print about a message that was sent. -/
inductive SendReport where
  | silent
  | path
  | json
deriving DecidableEq, Repr

/-- What to do. -/
inductive Command where
  | send (recipient : String) (body : BodySource) (sync : Bool) (report : SendReport)
  /-- With `wait`, or with a limit to it, wait for a message. -/
  | receive (wait : Bool) (timeoutSecs? intervalMs? : Option Nat) (order? : Option ReceiveOrder)
    (json : Bool)
  | pending (order? : Option ReceiveOrder) (json : Bool)
  | recover (json : Bool)
deriving DecidableEq, Repr

/-- What a command line asks for. -/
structure Invocation where
  /-- The directory to act in, if not the working directory. -/
  dir? : Option Path
  /-- The settings file, if it is not to be looked for. -/
  config? : Option Path
  command : Command
deriving DecidableEq

/-- What a well-formed command line is about. -/
inductive CommandLine where
  /-- How to use the program, or one of its commands. -/
  | help
  /-- Which version the program is. -/
  | version
  | invoke (invocation : Invocation)
deriving DecidableEq

namespace CommandLine

/-- Any text. -/
def isText (argument : Bytes) : Bool :=
  argument.text?.isSome

/-- A path of at least one byte. -/
def isPath (argument : Bytes) : Bool :=
  argument != []

/-- A text that can be read in a given way. -/
def reads {ε α : Type} (read : String → Except ε α) (argument : Bytes) : Bool :=
  argument.text?.any fun text => (read text).isOk

/-- A whole number of at least one. -/
def isPositive (argument : Bytes) : Bool :=
  argument.text?.any fun text => match Whole.read text with
    | .ok n => 0 < n
    | .error _ => false

/-- The options that stand before a command or behind it. -/
def everywhere : List (String × (Bytes → Bool)) :=
  [("dir", isPath), ("config", isPath)]

/-- The switch that asks for help. -/
def helpSwitch : String × Option Char :=
  ("help", some 'h')

/-- The switch that asks for the version. -/
def versionSwitch : String × Option Char :=
  ("version", some 'V')

/-- The option for a receive order. -/
def orderOption : String × (Bytes → Bool) :=
  ("order", reads ReceiveOrder.read)

/-- What stands before a command. -/
def opening : Grammar where
  stops := [helpSwitch, versionSwitch]
  options := everywhere
  commands := ["send", "recv", "pending", "recover", "help"]

/-- What stands behind `send`. -/
def sendGrammar : Grammar where
  switches := [("stdin", none), ("sync", none), ("verbose", some 'v'), ("json", none)]
  stops := [helpSwitch]
  options := everywhere
  words := [isText, isText]

/-- What stands behind `recv`. -/
def receiveGrammar : Grammar where
  switches := [("wait", none), ("json", none)]
  stops := [helpSwitch]
  options := everywhere ++
    [("timeout", reads Whole.read), ("interval-ms", isPositive), orderOption]

/-- What stands behind `pending`. -/
def pendingGrammar : Grammar where
  switches := [("json", none)]
  stops := [helpSwitch]
  options := everywhere ++ [orderOption]

/-- What stands behind `recover`. -/
def recoverGrammar : Grammar where
  switches := [("json", none)]
  stops := [helpSwitch]
  options := everywhere

/-- The grammar behind a command. -/
def grammar? (name : String) : Option Grammar :=
  [("send", sendGrammar), ("recv", receiveGrammar), ("pending", pendingGrammar),
    ("recover", recoverGrammar)].lookup name

/-- The whole number given for an option. -/
def whole? (given : Given) (option : String) : Option Nat :=
  (given.text? option).bind fun text => (Whole.read text).toOption

/-- The receive order given. -/
def order? (given : Given) : Option ReceiveOrder :=
  (given.text? orderOption.1).bind fun text => (ReceiveOrder.read text).toOption

/-- The body and the report that `send` is asked for. -/
def sendCommand (given : Given) : Except UsageError Command := do
  let body ← match given.words[1]?, given.has "stdin" with
    | some _, true => throw (.conflict "MESSAGE" "stdin")
    | some text, false => pure (.text text.display)
    | none, true => pure .input
    | none, false => pure .unstated
  let report ← match given.has "verbose", given.has "json" with
    | true, true => throw (.conflict "verbose" "json")
    | true, false => pure .path
    | false, true => pure .json
    | false, false => pure .silent
  match given.words[0]? with
  | some recipient => return .send recipient.display body (given.has "sync") report
  | none => throw (.missingWord "RECIPIENT")

/-- The command of a given name. -/
def command (name : String) (given : Given) : Except UsageError Command :=
  match name with
  | "send" => sendCommand given
  | "recv" =>
    .ok (.receive (given.has "wait") (whole? given "timeout") (whole? given "interval-ms")
      (order? given) (given.has "json"))
  | "pending" => .ok (.pending (order? given) (given.has "json"))
  | _ => .ok (.recover (given.has "json"))

/-- The path given for an option, behind the command or else before it. -/
def path? (before behind : Given) (option : String) : Option Path :=
  ((behind.value? option).or (before.value? option)).map Path.mk

/-- What is asked about in `help`. -/
def readHelp : List Bytes → Except UsageError CommandLine
  | [] => .ok .help
  | argument :: rest =>
    if argument.text?.any opening.commands.contains && rest.isEmpty then .ok .help
    else .error (.unknownCommand argument)

/-- Read what stands behind a command. -/
def readCommand (before : Given) (name : String) (rest : List Bytes) :
    Except UsageError CommandLine :=
  match grammar? name with
  | none => readHelp rest
  | some grammar => do
    match ← grammar.read rest with
    | .complete behind | .command behind _ _ =>
      return .invoke
        { dir? := path? before behind "dir"
          config? := path? before behind "config"
          command := ← command name behind }
    | .stopped _ => return .help

/-- Read a command line. -/
def read (arguments : List Bytes) : Except UsageError CommandLine := do
  match ← opening.read arguments with
  | .complete _ => throw .missingCommand
  | .stopped switch => return if switch = versionSwitch.1 then .version else .help
  | .command before name rest => readCommand before name rest

end CommandLine

end Postbox
