import Postbox.Mailbox.Order
import Postbox.Number.Decimal
import Postbox.Path
import Postbox.Files.Fault
import Postbox.Polling.Policy

/-!
# Settings

The settings of an endpoint: how to wait, which message to take first, and whether to bring
delivered messages safely onto the disk.
-/

namespace Postbox

/-- The settings of an endpoint. -/
structure Settings where
  /-- Milliseconds between two looks at an empty mailbox. -/
  intervalMs : Nat := 1000
  /-- The most milliseconds between two looks; the interval itself if there is no such bound. -/
  maxIntervalMs? : Option Nat := none
  /-- The factor from one sleep to the next. -/
  backoff : Binary64 := .one
  /-- Seconds to wait at most. -/
  timeoutSecs? : Option Nat := none
  sync : Bool := false
  order : ReceiveOrder := .oldest
deriving DecidableEq, Repr

/-- What is wrong with settings. -/
inductive SettingsError where
  /-- The file at a path cannot be read. -/
  | io (path : Path) (fault : Fault)
  /-- The file at a path holds no settings. -/
  | malformed (path : Path)
  | intervalZero
  | backoffTooSmall (backoff : Binary64)
  | capBelowInterval (cap interval : Nat)
deriving DecidableEq

/-- What is said of settings. -/
def SettingsError.message : SettingsError → String
  | io path fault => "I/O error reading " ++ path.display ++ ": " ++ fault.message
  | malformed path => "TOML parsing error in " ++ path.display
  | intervalZero => "Invalid value for polling.interval_ms: 0 (must be at least 1)"
  | backoffTooSmall backoff =>
    "Invalid value for polling.backoff: " ++ Decimal.text backoff ++
      " (must be a finite number >= 1.0)"
  | capBelowInterval cap interval =>
    "Invalid value for polling.max_interval_ms: " ++ toString cap ++
      " is below interval_ms " ++ toString interval

namespace Settings

/-- The polling policy that settings ask for. -/
def policy (settings : Settings) : PollPolicy where
  interval := .ofMillis settings.intervalMs
  maxInterval := .ofMillis (settings.maxIntervalMs?.getD settings.intervalMs)
  backoff := settings.backoff
  timeout? := settings.timeoutSecs?.map .ofSecs

/-- The first thing that is wrong with settings, if anything is. -/
def error? (settings : Settings) : Option SettingsError :=
  if settings.intervalMs = 0 then some .intervalZero
  else if ! settings.backoff.isGrowth then some (.backoffTooSmall settings.backoff)
  else match settings.maxIntervalMs? with
    | some cap =>
      if cap < settings.intervalMs then some (.capBelowInterval cap settings.intervalMs) else none
    | none => none

end Settings

end Postbox
