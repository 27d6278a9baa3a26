import Postbox.Command.Execution
import Postbox.Files.Walk
import Postbox.Message.Issuer
import Std.Time.DateTime.Timestamp

/-!
# The program

Requests are answered by the operating system, and the ending of the run goes to the standard
streams.
-/

namespace Postbox.Program

/-- The fault behind an error of the operating system. -/
def faultOf (error : IO.Error) : Fault :=
  let known (code : UInt32) : Fault :=
    (Fault.ofNumber? code.toNat).getD (.other (toString error))
  match error with
  | .noFileOrDirectory _ code _ | .alreadyExists _ code _ | .permissionDenied _ code _
  | .inappropriateType _ code _ | .noSuchThing _ code _ | .invalidArgument _ code _
  | .resourceExhausted _ code _ | .interrupted _ code _ | .otherError code _
  | .resourceBusy code _ | .resourceVanished code _ | .unsupportedOperation code _
  | .hardwareFault code _ | .unsatisfiedConstraints code _ | .illegalOperation code _
  | .protocolError code _ | .timeExpired code _ => known code
  | .unexpectedEof | .userError _ => .other (toString error)

/-- Try something. -/
def attempt {α : Type} (action : IO α) : IO (Except Fault α) := do
  try return .ok (← action)
  catch error => return .error (faultOf error)

/-- Try something with the file at a path, if the path is one that can be followed. -/
def onPath {α : Type} (path : Path) (action : String → IO α) : IO (Except Fault α) :=
  match path.fault? with
  | some fault => return .error fault
  | none => attempt (action path.display)

/-- The reading of the wall clock in nanoseconds since 1970, zero before that. -/
def wallClock : IO UInt64 := do
  let now ← Std.Time.Timestamp.now
  return UInt64.ofNat now.toNanosecondsSinceUnixEpoch.toInt.toNat

/-- Four random bytes as a number. -/
def randomSuffix : IO UInt32 := do
  let bytes ← IO.getRandomBytes 4
  return bytes.data.foldl (fun n b => n * 256 + b.toUInt32) 0

/-- Let time pass, in stretches that the system accepts. -/
def pass (duration : Duration) : IO Unit := do
  let millis := (duration + 999999) / 1000000
  let stretch := 0x80000000
  for _ in [0 : millis / stretch] do IO.sleep (UInt32.ofNat stretch)
  IO.sleep (UInt32.ofNat (millis % stretch))

/-- Answer a request. -/
def answer (threshold : Severity) (issuer : IO.Ref Issuer) {α : Type} : Request α → IO α
  | .workingDirectory => attempt do return Path.ofText (toString (← IO.currentDir))
  | .list directory => onPath directory fun text => do
    let entries ← ((← IO.currentDir) / text).readDir
    return entries.toList.map fun found => Bytes.ofText found.fileName
  | .isFile path => do
    match ← onPath path fun text => do return (← ((← IO.currentDir) / text).metadata).type with
    | .ok .file => return true
    | _ => return false
  | .holds path => do
    return (← onPath path fun text => do ((← IO.currentDir) / text).metadata).isOk
  | .read path => onPath path fun text => do return (← IO.FS.readBinFile text).data.toList
  | .create path => onPath path fun text => do
    let _ ← IO.FS.Handle.mk text .writeNew
  | .append path content => onPath path fun text => do
    let handle ← IO.FS.Handle.mk text .append
    handle.write ⟨content.toArray⟩
    handle.flush
  | .flush path => onPath path fun text => do
    let _ ← ((← IO.currentDir) / text).metadata
  | .rename source target => do
    match target.fault? with
    | some fault => return .error fault
    | none => onPath source fun text => IO.FS.rename text target.display
  | .remove path => onPath path fun text => IO.FS.removeFile text
  | .issueId => do
    let (id, next) := (← issuer.get).issue (← wallClock) (← randomSuffix)
    issuer.set next
    return id
  | .variable name => return (← IO.getEnv name).map Bytes.ofText
  | .input => attempt do return (← (← IO.getStdin).readBinToEnd).data.toList
  | .clock => IO.monoNanosNow
  | .sleep duration => pass duration
  | .report event => do
    if event.isShown threshold then IO.eprintln event.line

/-- Carry out a procedure. -/
def carryOut (threshold : Severity) (issuer : IO.Ref Issuer) {α : Type} :
    Procedure α → IO α
  | .done result => return result
  | .ask request next => do
    carryOut threshold issuer (next (← answer threshold issuer request))

/-- More attempts than any wait makes. -/
def attemptLimit : Nat := UInt64.size

end Postbox.Program

open Postbox in
/-- Run the program. -/
def main (arguments : List String) : IO UInt32 := do
  let threshold := Severity.ofSetting (← IO.getEnv "MAILDROP_LOG")
  let issuer ← IO.mkRef { last := 0 : Issuer }
  let procedure := CommandLine.run Program.attemptLimit (arguments.map Bytes.ofText)
  match ← Program.carryOut threshold issuer procedure with
  | none => return 1
  | some ending =>
    IO.print ending.output
    (← IO.getStdout).flush
    IO.eprint ending.complaint
    return UInt32.ofNat ending.status
