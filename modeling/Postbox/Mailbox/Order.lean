import Postbox.Text.Blank

/-!
# Receive orders

A receiver takes the oldest message first or follows whatever order the directory is listed in.
-/

namespace Postbox

/-- The order in which waiting messages are considered. -/
inductive ReceiveOrder where
  /-- Identifiers first, in their order, then other names in theirs. -/
  | oldest
  /-- The order of the directory listing. -/
  | listing
deriving DecidableEq, Repr

/-- A word that names no receive order, in small letters. -/
structure UnknownOrder where
  word : String
deriving DecidableEq, Repr

namespace ReceiveOrder

/-- The word for an order. -/
def name : ReceiveOrder → String
  | oldest => "oldest"
  | listing => "listing"

/-- The order that a word names exactly. -/
def ofName? (word : String) : Option ReceiveOrder :=
  if word = "oldest" then some oldest
  else if word = "listing" then some listing
  else none

/-- Read an order from a text; blanks around it and the size of its letters do not matter. -/
def read (text : String) : Except UnknownOrder ReceiveOrder :=
  let word := Text.lowerAscii (Text.trim text)
  match ofName? word with
  | some order => .ok order
  | none => .error ⟨word⟩

@[simp] theorem ofName?_name (order : ReceiveOrder) : ofName? order.name = some order := by
  cases order <;> rfl

end ReceiveOrder

/-- What is said of a word that names no order. -/
def UnknownOrder.message (unknown : UnknownOrder) : String :=
  "unknown receive order '" ++ unknown.word ++ "' (expected oldest or listing)"

end Postbox
