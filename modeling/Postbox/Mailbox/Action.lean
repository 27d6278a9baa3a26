import Postbox.Procedure
import Postbox.Text.Quoted

/-!
# Actions on mailboxes

An action is a procedure that can fail for one of the four causes for which sending and receiving
fail.
-/

namespace Postbox

/-- Why a message was not sent or not received. -/
inductive MailError where
  /-- There is nothing to receive now; waiting may help. -/
  | noMessage (mailbox : Path)
  /-- An operation on the file at a path failed. -/
  | io (path : Path) (fault : Fault)
  /-- The name cannot be that of a directory beside the sender's. -/
  | invalidRecipient (name : String)
  /-- No message came in the time one was ready to wait. -/
  | timeout (mailbox : Path) (waited : Duration)
deriving DecidableEq

namespace MailError

/-- What is said of an error. -/
def message : MailError → String
  | noMessage mailbox => "No message available in " ++ mailbox.display
  | io path fault => "I/O error on " ++ path.display ++ ": " ++ fault.message
  | invalidRecipient name => "Invalid recipient name: " ++ Text.quote name
  | timeout mailbox waited =>
    "Timed out after " ++ waited.text ++ " waiting for a message in " ++ mailbox.display

/-- Waiting may help. -/
def isNoMessage : MailError → Bool
  | noMessage _ => true
  | _ => false

end MailError

/-- A procedure that succeeds with a result or fails with a mail error. -/
abbrev Action := ExceptT MailError Procedure

namespace Action

/-- Make a request that cannot fail. -/
def ask {α : Type} (request : Request α) : Action α :=
  ExceptT.lift (Procedure.request request)

/-- Make a request and look at a fault oneself. -/
def attempt {α : Type} (request : Request (Except Fault α)) : Action (Except Fault α) :=
  ask request

/-- Make a request; a fault is an error on the given path. -/
def onPath {α : Type} (path : Path) (request : Request (Except Fault α)) : Action α := do
  match ← attempt request with
  | .ok answer => return answer
  | .error fault => throw (.io path fault)

/-- Report an event. -/
def report (event : Event) : Action Unit :=
  ask (.report event)

end Action

end Postbox
