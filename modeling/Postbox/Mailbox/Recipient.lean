import Postbox.Mailbox.Action

/-!
# Mailboxes of recipients

A mailbox is a directory.  The mailbox of a recipient is the directory of that name beside the
sender's own.
-/

namespace Postbox

/-- A directory that receives message files. -/
structure Mailbox where
  dir : Path
deriving DecidableEq

namespace Mailbox

/-- The recipient can be the name of a directory. -/
def isValidRecipient (recipient : String) : Bool :=
  recipient != "" && recipient != "." && recipient != ".." &&
    !recipient.toList.contains '/' && !recipient.toList.contains '\x00'

/-- The directory that holds the mailboxes of all that send from beside `base`.  Where the parent
cannot be read off the path it is left to the file system. -/
def directoryAround (base : Path) : Path :=
  match base.parent?, base.fileName? with
  | some parent, some _ => if parent.bytes = [] then base.join ⟨Path.dotdot⟩ else parent
  | _, _ => base.join ⟨Path.dotdot⟩

/-- The mailbox of a recipient beside the directory `base`. -/
def ofRecipient (base : Path) (recipient : String) : Except MailError Mailbox :=
  if isValidRecipient recipient then
    .ok ⟨(directoryAround base).child (Bytes.ofText recipient)⟩
  else .error (.invalidRecipient recipient)

/-- The path of an entry of the mailbox. -/
def entry (mailbox : Mailbox) (name : String) : Path :=
  mailbox.dir.child (Bytes.ofText name)

end Mailbox

end Postbox
