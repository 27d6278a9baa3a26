import Postbox.Command.Usage
import Postbox.Config.Resolution
import Postbox.Endpoint
import Postbox.Text.Json

/-!
# Execution of commands

A command acts at a directory, its home, by the settings in force there.  It ends with what to print
and, if it failed, with the cause.
-/

namespace Postbox

/-- Why a command failed. -/
inductive Failure where
  /-- The home directory is not known. -/
  | home (fault : Fault)
  | settings (error : SettingsError)
  | mail (error : MailError)
  | noBody
  | unreadableInput
deriving DecidableEq

/-- What is said of a failure. -/
def Failure.message : Failure → String
  | home fault => fault.message
  | settings error => error.message
  | mail error => error.message
  | noBody => "No message given: pass MESSAGE or --stdin"
  | unreadableInput => "Failed to read message from stdin"

/-- A command under way. -/
abbrev Course := ExceptT Failure Procedure

namespace Course

/-- Make a request. -/
def ask {α : Type} (request : Request α) : Course α :=
  ExceptT.lift (Procedure.request request)

/-- Act on a mailbox. -/
def mail {α : Type} (action : Action α) : Course α :=
  ExceptT.adapt .mail action

/-- Find out the settings in force for a directory. -/
def settings (overrides : Overrides) (directory : Path) : Course Settings :=
  ExceptT.adapt .settings (ExceptT.mk (Settings.resolve overrides directory))

end Course

/-- The endpoint at a directory with given settings. -/
def Settings.endpoint (settings : Settings) (home : Path) : Endpoint where
  home
  policy := settings.policy
  order := settings.order
  sync := settings.sync

namespace Invocation

/-- The working directory. -/
def workingDirectory : Course Path := do
  match ← Course.ask .workingDirectory with
  | .ok path => return path
  | .error fault => throw (.home fault)

/-- The directory to act in. -/
def home : Option Path → Course Path
  | none => workingDirectory
  | some dir => do
    if dir.isAbsolute then return Path.absolute dir dir
    else return Path.absolute (← workingDirectory) dir

/-- The body of a message to send. -/
def body : BodySource → Course String
  | .text body => return body
  | .unstated => throw .noBody
  | .input => do
    match ← Course.ask .input with
    | .error _ => throw .unreadableInput
    | .ok content => match content.text? with
      | some body => return body
      | none => throw .unreadableInput

/-- What to print about a message that was sent. -/
def sendText (recipient body : String) (path : Path) : SendReport → String
  | .silent => ""
  | .path => path.display ++ "\n"
  | .json =>
    (Json.object [("recipient", .text recipient), ("path", .text path.display),
      ("bytes", .number body.utf8ByteSize)]).pretty ++ "\n"

/-- Send a message. -/
def send (endpoint : Endpoint) (recipient : String) (source : BodySource)
    (report : SendReport) : Course String := do
  let body ← body source
  let path ← Course.mail (endpoint.send recipient body)
  Course.ask (.report (.debugging
    ("delivered " ++ toString body.utf8ByteSize ++ " bytes to " ++ path.display) []))
  return sendText recipient body path report

/-- What to print about a message that was received.  Its body is printed as it is. -/
def receiveText (json : Bool) (body : String) : String :=
  if json then (Json.object [("body", .text body)]).pretty ++ "\n" else body

/-- Receive a message; with `wait`, at most `limit` attempts are made.  There is no result if none
of them settles the matter. -/
def receive (endpoint : Endpoint) (wait json : Bool) (limit : Nat) :
    Course (Option String) := do
  let body? ←
    if wait then
      match ← ExceptT.lift (endpoint.waitAndReceive limit) with
      | some (.ok body) => pure (some body)
      | some (.error error) => throw (.mail error)
      | none => pure none
    else some <$> Course.mail endpoint.receive
  return body?.map (receiveText json)

/-- The entry for a waiting message in a list of them. -/
def pendingEntry (name : String) : Json :=
  let id? := MessageId.ofFileName? name
  .object
    [("file", .text name),
     ("id", (id?.map fun id => Json.text id.text).getD .null),
     ("sent_at_ns", (id?.map fun id => Json.number id.ticks.toNat).getD .null)]

/-- What to print about waiting messages. -/
def pendingText (json : Bool) (names : List String) : String :=
  if json then (Json.array (names.map pendingEntry)).pretty ++ "\n"
  else if names.isEmpty then "No pending messages\n"
  else String.join (names.map (· ++ "\n"))

/-- What to print about recovered claims. -/
def recoverText (json : Bool) (revived : Nat) : String :=
  if json then (Json.object [("revived", .number revived)]).compact ++ "\n"
  else "Recovered " ++ toString revived ++ " message(s)\n"

/-- Do what is asked for.  There is no result if waiting takes more than `limit` attempts. -/
def course (invocation : Invocation) (limit : Nat) : Course (Option String) := do
  let home ← home invocation.dir?
  let settings (overrides : Overrides) :=
    Course.settings { overrides with file? := invocation.config? } home
  match invocation.command with
  | .send recipient source sync report =>
    let settings ← settings { sync? := if sync then some true else none }
    some <$> send (settings.endpoint home) recipient source report
  | .receive wait timeoutSecs? intervalMs? order? json =>
    let settings ← settings { intervalMs?, timeoutSecs?, order? }
    receive (settings.endpoint home) (wait || timeoutSecs?.isSome) json limit
  | .pending order? json =>
    let settings ← settings { order? }
    let paths ← Course.mail (settings.endpoint home).pending
    return some (pendingText json ((paths.filterMap Path.fileName?).map Bytes.display))
  | .recover json =>
    let revived ← Course.mail (Mailbox.recoverClaims ⟨home⟩)
    return some (recoverText json revived)

end Invocation

/-- How a run of the program ends. -/
inductive Ending where
  /-- The command line cannot be read. -/
  | misused (error : UsageError)
  /-- Printing what there is to print. -/
  | done (output : String)
  | failed (failure : Failure)
deriving DecidableEq

namespace Ending

/-- The exit status. -/
def status : Ending → Nat
  | done _ => 0
  | failed _ => 1
  | misused _ => 2

/-- What goes to standard output. -/
def output : Ending → String
  | done output => output
  | failed _ | misused _ => ""

/-- What goes to standard error. -/
def complaint : Ending → String
  | done _ => ""
  | failed failure => "Error: " ++ failure.message ++ "\n"
  | misused error => "error: " ++ error.message ++ "\n\n" ++ CommandLine.usage

end Ending

namespace CommandLine

/-- Do what a command line asks for.  There is no ending if waiting takes more than `limit`
attempts. -/
def perform (limit : Nat) : CommandLine → Procedure (Option Ending)
  | help => return some (.done usage)
  | version => return some (.done versionText)
  | invoke invocation => do
    match ← (invocation.course limit).run with
    | .ok output? => return output?.map .done
    | .error failure => return some (.failed failure)

/-- Run the program with some arguments. -/
def run (limit : Nat) (arguments : List Bytes) : Procedure (Option Ending) :=
  match read arguments with
  | .error error => return some (.misused error)
  | .ok line => line.perform limit

end CommandLine

end Postbox
