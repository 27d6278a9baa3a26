import Postbox.Config.Settings
import Postbox.Number.Whole
import Postbox.Text.Quoted

/-!
# Layers of settings

Settings are put together in layers: a higher layer decides each setting that it supplies and leaves
all others as they are.  One layer comes from the environment, and one from whoever asks.
-/

namespace Postbox

/-- Values for some of the settings. -/
structure Layer where
  intervalMs? : Option Nat := none
  maxIntervalMs? : Option Nat := none
  backoff? : Option Binary64 := none
  timeoutSecs? : Option Nat := none
  sync? : Option Bool := none
  order? : Option ReceiveOrder := none
deriving DecidableEq, Repr

/-- Why part of a layer, or a settings file that was found, does not count. -/
inductive SettingsWarning where
  | fileIgnored (path : Path) (error : SettingsError)
  /-- The value of a variable cannot be read. -/
  | variableIgnored (name value : String) (reason : String)
  | zeroInterval
  | smallBackoff (backoff : Binary64)
  | zeroOverride
deriving DecidableEq

/-- The text of a warning. -/
def SettingsWarning.message : SettingsWarning → String
  | fileIgnored path error => "Ignoring config at " ++ path.quoted ++ ": " ++ error.message
  | variableIgnored name value reason =>
    "Ignoring " ++ name ++ "=" ++ Text.quote value ++ ": " ++ reason
  | zeroInterval => "Ignoring MAILDROP_POLL_INTERVAL_MS=0: must be at least 1"
  | smallBackoff backoff =>
    "Ignoring MAILDROP_POLL_BACKOFF=" ++ Decimal.text backoff ++ ": must be >= 1.0"
  | zeroOverride => "Ignoring interval override of 0 ms: must be at least 1"

/-- The settings under a layer. -/
def Settings.under (settings : Settings) (layer : Layer) : Settings where
  intervalMs := layer.intervalMs?.getD settings.intervalMs
  maxIntervalMs? := layer.maxIntervalMs?.or settings.maxIntervalMs?
  backoff := layer.backoff?.getD settings.backoff
  timeoutSecs? := layer.timeoutSecs?.or settings.timeoutSecs?
  sync := layer.sync?.getD settings.sync
  order := layer.order?.getD settings.order

/-- The cap raised to the interval, if there is a cap. -/
def Settings.raiseCap (settings : Settings) : Settings :=
  { settings with maxIntervalMs? := settings.maxIntervalMs?.map (max · settings.intervalMs) }

/-- The values of the environment variables.  One that is not set has none. -/
abbrev Environment := String → Option Bytes

namespace Environment

/-- The variables that settings are taken from. -/
def names : List String :=
  ["MAILDROP_POLL_INTERVAL_MS", "MAILDROP_POLL_MAX_INTERVAL_MS", "MAILDROP_POLL_BACKOFF",
   "MAILDROP_TIMEOUT_SECS", "MAILDROP_ORDER", "MAILDROP_SYNC"]

/-- What is said of a text that is no truth value. -/
def truthReason : String :=
  "provided string was not `true` or `false`"

/-- Read a truth value. -/
def readTruth (text : String) : Except String Bool :=
  if text = "true" then .ok true
  else if text = "false" then .ok false
  else .error truthReason

/-- Read the value of a variable, without the blanks around it.  A value that is no text counts as
not set. -/
def value {α : Type} (environment : Environment) (name : String)
    (read : String → Except String α) : Option α × List SettingsWarning :=
  match (environment name).bind Bytes.text? with
  | none => (none, [])
  | some text => match read (Text.trim text) with
    | .ok value => (some value, [])
    | .error reason => (none, [.variableIgnored name text reason])

/-- Keep a value that will do; warn of one that will not. -/
def require {α : Type} (holds : α → Bool) (warning : α → SettingsWarning) :
    Option α × List SettingsWarning → Option α × List SettingsWarning
  | (some value, warnings) =>
    if holds value then (some value, warnings) else (none, warnings ++ [warning value])
  | (none, warnings) => (none, warnings)

/-- The layer that the environment supplies, and what in it does not count. -/
def layer (environment : Environment) : Layer × List SettingsWarning :=
  let readWhole (text : String) := (Whole.read text).mapError WholeError.message
  let interval := require (0 < ·) (fun _ => .zeroInterval)
    (environment.value "MAILDROP_POLL_INTERVAL_MS" readWhole)
  let cap := environment.value "MAILDROP_POLL_MAX_INTERVAL_MS" readWhole
  let backoff := require Binary64.isGrowth .smallBackoff
    (environment.value "MAILDROP_POLL_BACKOFF" fun text =>
      (Decimal.read text).mapError DecimalError.message)
  let timeout := environment.value "MAILDROP_TIMEOUT_SECS" readWhole
  let order := environment.value "MAILDROP_ORDER" fun text =>
    (ReceiveOrder.read text).mapError UnknownOrder.message
  let sync := environment.value "MAILDROP_SYNC" readTruth
  (⟨interval.1, cap.1, backoff.1, timeout.1, sync.1, order.1⟩,
    interval.2 ++ cap.2 ++ backoff.2 ++ timeout.2 ++ order.2 ++ sync.2)

end Environment

/-- What whoever asks for settings supplies. -/
structure Overrides where
  intervalMs? : Option Nat := none
  timeoutSecs? : Option Nat := none
  order? : Option ReceiveOrder := none
  sync? : Option Bool := none
  /-- The settings file to read instead of one that is found; it has to be a good one. -/
  file? : Option Path := none
deriving DecidableEq

namespace Overrides

/-- The layer that overrides supply, and what in it does not count. -/
def layer (overrides : Overrides) : Layer × List SettingsWarning :=
  let interval := Environment.require (0 < ·) (fun _ => .zeroOverride)
    (overrides.intervalMs?, [])
  ({ intervalMs? := interval.1
     timeoutSecs? := overrides.timeoutSecs?
     sync? := overrides.sync?
     order? := overrides.order? }, interval.2)

end Overrides

/-- The settings under the overrides.  An overriding interval raises the cap. -/
def Settings.overridden (settings : Settings) (layer : Layer) : Settings :=
  let settings := settings.under layer
  if layer.intervalMs?.isSome then settings.raiseCap else settings

end Postbox
