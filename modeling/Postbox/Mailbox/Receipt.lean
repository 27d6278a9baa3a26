import Postbox.Mailbox.Pending

/-!
# Receipt

A receiver claims a message by renaming its file, then reads it and removes it.  Of two receivers
only one can make the claim.  A claim that a receiver left behind stays hidden until claims are
recovered.
-/

namespace Postbox.Mailbox

/-- The path under which a receiver holds the message that waits at a path. -/
def claimPath (candidate : Path) (name : String) : Path :=
  candidate.withFileName (Bytes.ofText (MessageName.claim name))

/-- Put a claimed message back. -/
def restore (claim candidate : Path) : Action Unit := do
  match ← Action.attempt (.rename claim candidate) with
  | .ok () => return ()
  | .error fault =>
    Action.report (.warning
      ("Failed to restore claimed message " ++ claim.quoted ++ ": " ++ fault.message))

/-- The text of a file. -/
def readText (path : Path) : Action (Except Fault String) := do
  match ← Action.attempt (.read path) with
  | .error fault => return .error fault
  | .ok content => match content.text? with
    | some text => return .ok text
    | none => return .error .notText

/-- Read and remove a message that has been claimed.  One that cannot be read is put back. -/
def consume (claim candidate : Path) : Action String := do
  match ← readText claim with
  | .error fault =>
    restore claim candidate
    throw (.io candidate fault)
  | .ok body =>
    Action.onPath claim (.remove claim)
    Action.report (.debugging "received message"
      [("path", candidate.display), ("bytes", toString body.utf8ByteSize)])
    return body

/-- Take the first of the named messages that no other receiver has claimed. -/
def takeFirst (mailbox : Mailbox) : List String → Action String
  | [] => throw (.noMessage mailbox.dir)
  | name :: rest => do
    let candidate := mailbox.entry name
    let claim := claimPath candidate name
    match ← Action.attempt (.rename candidate claim) with
    | .ok () => consume claim candidate
    | .error .notFound =>
      Action.report (.debugging "message taken by another receiver"
        [("path", candidate.display)])
      mailbox.takeFirst rest
    | .error fault => throw (.io candidate fault)

/-- Take the next message and return its body. -/
def takeNext (mailbox : Mailbox) (order : ReceiveOrder) : Action String := do
  mailbox.takeFirst (← mailbox.waiting order)

/-- Bring the claimed ones among all names in the directory back into view, and return how many
they are, on top of those counted already. -/
def reviveAll (mailbox : Mailbox) (revived : Nat) : List Name → Action Nat
  | [] => return revived
  | name :: rest =>
    match (Bytes.text? name).bind MessageName.claimed? with
    | none => mailbox.reviveAll revived rest
    | some visible => do
      let claim := mailbox.dir.child name
      let target := mailbox.entry visible
      match ← Action.attempt (.rename claim target) with
      | .ok () =>
        Action.report (.debugging "revived claimed message" [("path", target.display)])
        mailbox.reviveAll (revived + 1) rest
      | .error .notFound => mailbox.reviveAll revived rest
      | .error fault => throw (.io claim fault)

/-- Bring all claimed messages back into view.  To be used only while nobody receives. -/
def recoverClaims (mailbox : Mailbox) : Action Nat := do
  mailbox.reviveAll 0 (← Action.onPath mailbox.dir (.list mailbox.dir))

end Postbox.Mailbox
