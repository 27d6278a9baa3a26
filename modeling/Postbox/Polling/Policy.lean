import Postbox.Duration
import Postbox.Number.Binary64

/-!
# Polling policies

How long to sleep between two looks at an empty mailbox, and when to give up.  The first sleep is
the interval; later ones grow by the backoff factor up to a cap.  Growth is worked out in binary
floating point.
-/

namespace Postbox

/-- How to wait for a message. -/
structure PollPolicy where
  /-- The sleep after the first look. -/
  interval : Duration
  /-- The longest sleep that growth leads to. -/
  maxInterval : Duration
  /-- The factor from one sleep to the next. -/
  backoff : Binary64
  /-- How long to wait at most. -/
  timeout? : Option Duration
deriving DecidableEq, Repr

namespace PollPolicy

/-- Equal sleeps, without end. -/
def fixed (interval : Duration) : PollPolicy :=
  ⟨interval, interval, .one, none⟩

/-- The policy when none is asked for: a look every second, without end. -/
def standard : PollPolicy :=
  fixed (.ofSecs 1)

/-- The policy with growing sleeps. -/
def withBackoff (policy : PollPolicy) (backoff : Binary64) (maxInterval : Duration) : PollPolicy :=
  { policy with backoff, maxInterval }

/-- The policy with an end. -/
def withTimeout (policy : PollPolicy) (timeout : Duration) : PollPolicy :=
  { policy with timeout? := some timeout }

/-- The length that growing sleeps stop at.  It is never below the interval. -/
def cap (policy : PollPolicy) : Duration :=
  max policy.maxInterval policy.interval

/-- The factor in force: one that would shrink sleeps, or is no finite number, counts as one. -/
def factor (policy : PollPolicy) : Binary64 :=
  if policy.backoff.isGrowth then policy.backoff else .one

/-- A grown sleep has at most this many nanoseconds. -/
def longest : Nat := UInt64.size - 1

/-- The sleep after one of the given length. -/
def nextInterval (policy : PollPolicy) (current : Duration) : Duration :=
  let grown := (Binary64.ofNat current).product policy.factor
  if (Binary64.ofNat policy.cap).units ≤ grown.units then policy.cap
  else min grown.roundUnits longest

/-- The next sleeps after one of the given length. -/
def nextIntervals (policy : PollPolicy) (current : Duration) : Nat → List Duration
  | 0 => []
  | n + 1 =>
    let next := policy.nextInterval current
    next :: policy.nextIntervals next n

end PollPolicy

end Postbox
