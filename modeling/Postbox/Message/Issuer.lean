import Postbox.Message.Id

/-!
# Issuing identifiers

An issuer hands out identifiers that follow the clock, except that it never goes back or stands
still: when the clock reads no more than the last identifier's ticks, the next one is a nanosecond
further.
-/

namespace Postbox

/-- What an issuer remembers: the ticks of the last identifier it handed out, zero at first. -/
structure Issuer where
  last : UInt64 := 0
deriving DecidableEq, Repr

namespace Issuer

/-- The ticks of the next identifier when the clock reads `now`. -/
def nextTicks (issuer : Issuer) (now : UInt64) : UInt64 :=
  if issuer.last < now then now else issuer.last + 1

/-- Hand out an identifier at a reading of the clock. -/
def issue (issuer : Issuer) (now : UInt64) (suffix : UInt32) : MessageId × Issuer :=
  let ticks := issuer.nextTicks now
  (⟨ticks, suffix⟩, ⟨ticks⟩)

/-- Hand out identifiers at successive readings of the clock, each with its suffix. -/
def issueAll (issuer : Issuer) : List (UInt64 × UInt32) → List MessageId
  | [] => []
  | (now, suffix) :: rest =>
    let (id, next) := issuer.issue now suffix
    id :: next.issueAll rest

end Issuer

end Postbox
