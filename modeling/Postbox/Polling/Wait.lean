import Postbox.Mailbox.Action
import Postbox.Polling.Policy

/-!
# Waiting

An attempt is repeated as long as it finds no message.  Between two attempts one sleeps as the
policy says, but never past the deadline; the last attempt is made when the deadline is reached.
-/

namespace Postbox.PollPolicy

/-- The sleep after an attempt that found no message, `elapsed` after the beginning; or the error
that ends the wait. -/
def pause (policy : PollPolicy) (mailbox : Path) (interval elapsed : Duration) :
    Except MailError Duration :=
  match policy.timeout? with
  | none => .ok interval
  | some timeout =>
    if timeout ≤ elapsed then .error (.timeout mailbox elapsed)
    else .ok (min interval (timeout - elapsed))

/-- What waiting needs: something to attempt, the time since the beginning, and sleep.  The number
of attempts made so far is known to the sleeper. -/
structure Routine (m : Type → Type u) (α : Type) where
  attempt : m (Except MailError α)
  elapsed : m Duration
  sleep : (made : Nat) → Duration → m Unit

/-- Make at most `limit` further attempts after `made` ones, the next sleep being `interval`.  There
is no result if none of them settles the matter. -/
def waitFrom {m : Type → Type u} {α : Type} [Monad m] (policy : PollPolicy) (mailbox : Path)
    (routine : Routine m α) :
    (limit made : Nat) → (interval : Duration) → m (Option (Except MailError α))
  | 0, _, _ => pure none
  | limit + 1, made, interval => do
    match ← routine.attempt with
    | .error (.noMessage _) =>
      match policy.pause mailbox interval (← routine.elapsed) with
      | .error error => pure (some (.error error))
      | .ok duration =>
        routine.sleep (made + 1) duration
        policy.waitFrom mailbox routine limit (made + 1) (policy.nextInterval interval)
    | result => pure (some result)

/-- Wait with at most `limit` attempts. -/
def wait {m : Type → Type u} {α : Type} [Monad m] (policy : PollPolicy) (mailbox : Path)
    (routine : Routine m α) (limit : Nat) : m (Option (Except MailError α)) :=
  policy.waitFrom mailbox routine limit 0 policy.interval

end Postbox.PollPolicy
