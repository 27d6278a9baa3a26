import Postbox.Number.Hex
import Postbox.Text.Blank

/-!
# Message identifiers

An identifier is a reading of the clock in nanoseconds followed by a suffix that keeps two senders
apart.  It is written as 24 hexadecimal digits, sixteen for the clock and eight for the suffix, so
that identifiers and their texts are ordered alike.
-/

namespace Postbox

/-- A message identifier: nanoseconds since 1970 and a suffix. -/
structure MessageId where
  ticks : UInt64
  suffix : UInt32
deriving DecidableEq, Repr

namespace MessageId

/-- The identifier as one number below 2^96. -/
def value (id : MessageId) : Nat :=
  id.ticks.toNat * UInt32.size + id.suffix.toNat

/-- The identifier with a given value below 2^96. -/
def ofValue (value : Nat) : MessageId :=
  ⟨UInt64.ofNat (value / UInt32.size), UInt32.ofNat (value % UInt32.size)⟩

instance : Ord MessageId :=
  ⟨fun a b => compare a.value b.value⟩

/-- The number of digits in the text of an identifier. -/
def width : Nat := 24

/-- The text of an identifier. -/
def text (id : MessageId) : String :=
  String.ofList (Hex.digits width id.value)

/-- The identifier with a given text. -/
def ofText? (text : String) : Option MessageId :=
  if text.toList.length = width then (Hex.read? text.toList).map ofValue else none

/-- The ending of the names of message files. -/
def ending : String := ".eml"

/-- The name of the message file while it can be received. -/
def fileName (id : MessageId) : String :=
  id.text ++ ending

/-- The name of the message file while its body is being written. -/
def stagingName (id : MessageId) : String :=
  "." ++ id.fileName

/-- The identifier that a message file is named by. -/
def ofFileName? (name : String) : Option MessageId :=
  (Text.dropEnd? ending name).bind ofText?

end MessageId

end Postbox
