import Postbox.Message.Id

/-!
# Names in a mailbox

Three families of file names meet in a mailbox.  A visible name ends in `.eml` and does not begin
with a dot: the file is a message that can be received.  A claim name is made from a visible one
when a receiver takes the file, and a staging name belongs to a message still being written.
-/

namespace Postbox.MessageName

/-- The name belongs to a message that can be received. -/
def isVisible (name : String) : Bool :=
  name.toList.head? != some '.' && (Text.dropEnd? MessageId.ending name).isSome

/-- What a claim puts after the name it claims. -/
def claimEnding : String := ".claimed"

/-- The name of a message while a receiver holds it. -/
def claim (name : String) : String :=
  "." ++ name ++ claimEnding

/-- The visible name that was claimed under a given name. -/
def claimed? (name : String) : Option String :=
  match name.toList with
  | '.' :: rest =>
    (Text.dropEnd? claimEnding (String.ofList rest)).filter isVisible
  | _ => none

end Postbox.MessageName
