import Postbox.Mailbox.Order
import Postbox.Mailbox.Recipient
import Postbox.Message.Name

/-!
# Waiting messages

The messages that wait in a mailbox are its regular files with visible names.  In the oldest-first
order the files named by an identifier come first, in the order of their identifiers, and then all
others in the order of their names.
-/

namespace Postbox

/-- The first name comes before the second, or is the same, when the oldest come first. -/
def MessageName.isUpTo (a b : String) : Bool :=
  match MessageId.ofFileName? a, MessageId.ofFileName? b with
  | some x, some y => x.value ≤ y.value
  | some _, none => true
  | none, some _ => false
  | none, none => a ≤ b

/-- Arrange names for a receive order. -/
def ReceiveOrder.arrange : ReceiveOrder → List String → List String
  | oldest, names => names.mergeSort MessageName.isUpTo
  | listing, names => names

namespace Mailbox

/-- The visible names among all names in a directory, as texts. -/
def visibleNames (names : List Name) : List String :=
  (names.filterMap Bytes.text?).filter MessageName.isVisible

/-- Those of the names that belong to regular files. -/
def regularFiles (mailbox : Mailbox) : List String → Action (List String)
  | [] => return []
  | name :: rest => do
    let regular ← Action.ask (.isFile (mailbox.entry name))
    let others ← mailbox.regularFiles rest
    return if regular then name :: others else others

/-- The names of waiting messages, in the given order. -/
def waiting (mailbox : Mailbox) (order : ReceiveOrder) : Action (List String) := do
  let names ← Action.onPath mailbox.dir (.list mailbox.dir)
  return order.arrange (← mailbox.regularFiles (visibleNames names))

/-- The paths of waiting messages, in the given order; nothing changes. -/
def pending (mailbox : Mailbox) (order : ReceiveOrder) : Action (List Path) := do
  return (← mailbox.waiting order).map mailbox.entry

end Mailbox

end Postbox
