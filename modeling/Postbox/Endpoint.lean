import Postbox.Mailbox.Delivery
import Postbox.Mailbox.Receipt
import Postbox.Polling.Wait

/-!
# Endpoints

An endpoint sends and receives from one directory: the directory is its own mailbox, and its
recipients are the directories beside it.
-/

namespace Postbox

/-- A place to send and receive from, with the settings for both. -/
structure Endpoint where
  home : Path
  policy : PollPolicy := .standard
  order : ReceiveOrder := .oldest
  sync : Bool := false
deriving DecidableEq

namespace Endpoint

/-- The mailbox of the endpoint itself. -/
def mailbox (endpoint : Endpoint) : Mailbox :=
  ⟨endpoint.home⟩

/-- The endpoint at the working directory. -/
def here : Action Endpoint := do
  let home ← Action.onPath (.ofText ".") .workingDirectory
  return { home }

/-- Deliver a body to a recipient and return the path of the message file. -/
def send (endpoint : Endpoint) (recipient body : String) : Action Path := do
  let mailbox ← (Mailbox.ofRecipient endpoint.home recipient : Except MailError Mailbox)
  let id ← Action.ask .issueId
  Action.report (.debugging "sending message"
    [("recipient", Text.quote recipient), ("id", id.text)])
  mailbox.deliver id body endpoint.sync

/-- Take the next message, if there is one. -/
def receive (endpoint : Endpoint) : Action String :=
  endpoint.mailbox.takeNext endpoint.order

/-- One attempt after the other to take a message, the clock having read `start` at the
beginning. -/
def routine (endpoint : Endpoint) (start : Duration) : PollPolicy.Routine Procedure String where
  attempt := endpoint.receive.run
  elapsed := (· - start) <$> Procedure.request .clock
  sleep made duration := do
    Procedure.request (.report (.tracing "mailbox empty, sleeping"
      [("attempts", toString made), ("sleep_for", duration.text),
       ("mailbox", endpoint.home.display)]))
    Procedure.request (.sleep duration)

/-- Wait for a message and take it.  There is no result if `limit` attempts do not settle the
matter. -/
def waitAndReceive (endpoint : Endpoint) (limit : Nat) :
    Procedure (Option (Except MailError String)) := do
  let start ← Procedure.request .clock
  endpoint.policy.wait endpoint.home (endpoint.routine start) limit

/-- The paths of the messages that wait for the endpoint. -/
def pending (endpoint : Endpoint) : Action (List Path) :=
  endpoint.mailbox.pending endpoint.order

/-- Send from the working directory. -/
def sendHere (recipient body : String) : Action Unit := do
  let _ ← (← here).send recipient body

/-- Take the next message of the working directory. -/
def receiveHere : Action String := do
  (← here).receive

/-- Wait for a message in the working directory and take it. -/
def waitAndReceiveHere (limit : Nat) : Procedure (Option (Except MailError String)) := do
  match ← here.run with
  | .ok endpoint => endpoint.waitAndReceive limit
  | .error error => return some (.error error)

end Endpoint

end Postbox
