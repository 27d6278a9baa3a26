import Postbox.Mailbox.Recipient

/-!
# Delivery

A body is written to a staging file, whose name no receiver looks at, and then renamed into view.
So a receiver sees either nothing or the whole message.
-/

namespace Postbox.Mailbox

/-- Remove a staging file that is of no use any more.  One that is gone already is fine. -/
def removeStaging (staging : Path) : Action Unit := do
  match ← Action.attempt (.remove staging) with
  | .ok () | .error .notFound => return ()
  | .error fault =>
    Action.report (.warning
      ("Failed to remove staging file " ++ staging.quoted ++ ": " ++ fault.message))

/-- Fill a new staging file. -/
def writeStaged (staging : Path) (body : String) (sync : Bool) : Action Unit := do
  Action.onPath staging (.append staging (Bytes.ofText body))
  if sync then Action.onPath staging (.flush staging)

/-- Deliver a message into an existing directory and return the path of its file.  A staging file
that is there already belongs to another sender and is left alone.  With `sync`, the file is brought
safely onto the disk before it comes into view, and the directory after. -/
def deliver (mailbox : Mailbox) (id : MessageId) (body : String) (sync : Bool) : Action Path := do
  let staging := mailbox.entry id.stagingName
  let final := mailbox.entry id.fileName
  Action.onPath staging (.create staging)
  try writeStaged staging body sync
  catch error =>
    removeStaging staging
    throw error
  try Action.onPath final (.rename staging final)
  catch error =>
    removeStaging staging
    throw error
  if sync then Action.onPath mailbox.dir (.flush mailbox.dir)
  Action.report (.debugging "delivered message"
    [("path", final.display), ("bytes", toString body.utf8ByteSize)])
  return final

end Postbox.Mailbox
