import Postbox.Number.Hex
import Postbox.Text.Blank

/-!
# Log events

What a program reports while it works.  Every event has a severity, and a reader chooses how far
down the list of severities events are shown.  The message of an event may quote names that others
chose, so its line shows by their codes the characters that a terminal would obey.
-/

namespace Postbox

/-- How much an event matters, the gravest first. -/
inductive Severity where
  | error
  | warn
  | info
  | debug
  | trace
deriving DecidableEq, Repr

namespace Severity

/-- The place in the list of severities. -/
def rank : Severity → Nat
  | error => 0
  | warn => 1
  | info => 2
  | debug => 3
  | trace => 4

/-- The word at the start of a log line. -/
def word : Severity → String
  | error => "ERROR"
  | warn => "WARN"
  | info => "INFO"
  | debug => "DEBUG"
  | trace => "TRACE"

/-- The threshold that a setting asks for.  The size of letters does not matter; any other word,
and no setting at all, asks for `info`. -/
def ofSetting (setting : Option String) : Severity :=
  match setting.map Text.lowerAscii with
  | some "trace" => trace
  | some "debug" => debug
  | some "warn" => warn
  | some "error" => error
  | _ => info

end Severity

/-- Something that happened. -/
structure Event where
  severity : Severity
  message : String
  /-- What the event is about, as named values. -/
  fields : List (String × String)
deriving DecidableEq, Repr

namespace Event

/-- A warning. -/
def warning (message : String) : Event :=
  ⟨.warn, message, []⟩

/-- An event of interest when looking for faults. -/
def debugging (message : String) (fields : List (String × String)) : Event :=
  ⟨.debug, message, fields⟩

/-- An event of interest when following every step. -/
def tracing (message : String) (fields : List (String × String)) : Event :=
  ⟨.trace, message, fields⟩

/-- The event is shown to a reader who asks for `threshold`. -/
def isShown (threshold : Severity) (event : Event) : Bool :=
  event.severity.rank ≤ threshold.rank

/-- A character of a message as it stands in a log line.  A character that rings, deletes, turns the
page or begins a command to a terminal is shown by its code. -/
def harmless (c : Char) : List Char :=
  if ['\x07', '\x08', '\x0c', '\x1b', '\x7f'].contains c then ['\\', 'x'] ++ Hex.digits 2 c.toNat
  else if 0x80 ≤ c.toNat ∧ c.toNat ≤ 0x9F then
    ['\\', 'u', '\x7b'] ++ Hex.minimal c.toNat ++ ['\x7d']
  else [c]

/-- The message as it stands in a log line. -/
def messageText (event : Event) : String :=
  String.ofList (event.message.toList.flatMap harmless)

/-- A named value. -/
def fieldText (field : String × String) : String :=
  field.1 ++ "=" ++ field.2

/-- The message and the named values. -/
def text (event : Event) : String :=
  " ".intercalate (event.messageText :: event.fields.map fieldText)

/-- The line in a log. -/
def line (event : Event) : String :=
  event.severity.word ++ " " ++ event.text

end Event

end Postbox
