import Postbox.Files.Fault
import Postbox.Log
import Postbox.Duration
import Postbox.Message.Id
import Postbox.Path

/-!
# Procedures

What a sender or a receiver does is a procedure: it makes requests of the world one after another,
each depending on the answers so far, and ends with a result.  A procedure is a value, so it can be
run in a world, stopped after any request, or examined.
-/

namespace Postbox

/-- What a procedure can ask of the world, by the type of the answer. -/
inductive Request : Type → Type where
  /-- The path of the working directory. -/
  | workingDirectory : Request (Except Fault Path)
  /-- The names in a directory, in whatever order they come. -/
  | list (directory : Path) : Request (Except Fault (List Name))
  /-- Whether a path leads to a regular file. -/
  | isFile (path : Path) : Request Bool
  /-- Whether a path leads to any entry. -/
  | holds (path : Path) : Request Bool
  /-- The content of a file. -/
  | read (path : Path) : Request (Except Fault Bytes)
  /-- Make a new empty file. -/
  | create (path : Path) : Request (Except Fault Unit)
  /-- Write behind the content of a file. -/
  | append (path : Path) (content : Bytes) : Request (Except Fault Unit)
  /-- Bring a file or a directory safely onto the disk. -/
  | flush (path : Path) : Request (Except Fault Unit)
  /-- Rename an entry. -/
  | rename (source target : Path) : Request (Except Fault Unit)
  /-- Remove a file. -/
  | remove (path : Path) : Request (Except Fault Unit)
  /-- A new message identifier. -/
  | issueId : Request MessageId
  /-- The value of an environment variable. -/
  | variable (name : String) : Request (Option Bytes)
  /-- All that is left on standard input. -/
  | input : Request (Except Fault Bytes)
  /-- The reading of a clock that never goes back. -/
  | clock : Request Duration
  /-- Let time pass. -/
  | sleep (duration : Duration) : Request Unit
  /-- Report an event. -/
  | report (event : Event) : Request Unit

/-- A result, or a request and what to do with the answer. -/
inductive Procedure (α : Type) : Type 1 where
  | done (result : α)
  | ask {β : Type} (request : Request β) (next : β → Procedure α)

namespace Procedure

/-- Do one procedure, then another that depends on its result. -/
def andThen {α β : Type} : Procedure α → (α → Procedure β) → Procedure β
  | done result, next => next result
  | ask request rest, next => ask request fun answer => (rest answer).andThen next

/-- Make one request. -/
def request {α : Type} (request : Request α) : Procedure α :=
  ask request done

instance : Monad Procedure where
  pure := done
  bind := andThen

theorem andThen_done {α : Type} (procedure : Procedure α) :
    procedure.andThen done = procedure := by
  induction procedure with
  | done _ => rfl
  | ask request next ih => simp [andThen, ih]

theorem andThen_assoc {α β γ : Type} (procedure : Procedure α)
    (f : α → Procedure β) (g : β → Procedure γ) :
    (procedure.andThen f).andThen g = procedure.andThen fun a => (f a).andThen g := by
  induction procedure with
  | done _ => rfl
  | ask request next ih => simp [andThen, ih]

instance : LawfulMonad Procedure :=
  LawfulMonad.mk' Procedure
    (fun procedure => andThen_done procedure)
    (fun _ _ => rfl)
    (fun procedure f g => andThen_assoc procedure f g)

end Procedure

end Postbox
