import Postbox.Files.Operation
import Postbox.Message.Issuer
import Postbox.Procedure

/-!
# Worlds

A world answers the requests of a procedure: it holds a file tree, a working directory, an
environment, a clock and an issuer of identifiers, and it remembers what was reported.  Other
programs may put files in place while the procedure sleeps.
-/

namespace Postbox

/-- The order in which a directory listing returns names: any rearrangement of them. -/
structure Scan where
  arrange : List Name → List Name
  perm : ∀ names, (arrange names).Perm names

/-- Names come in their own order. -/
def Scan.sorted : Scan :=
  ⟨id, fun _ => .refl _⟩

/-- A file that another program puts in place, in full, once the clock reads `due`. -/
structure Arrival where
  due : Duration
  location : Location
  content : Bytes

/-- All that a procedure can notice or change. -/
structure World where
  tree : Tree
  /-- Where relative paths start.  The working directory is held by its name: it does not follow a
  directory that is renamed, and then there may be nothing at this location. -/
  cwd : Location
  environment : String → Option Bytes := fun _ => none
  /-- Standard input. -/
  input : Bytes := []
  scan : Scan := .sorted
  issuer : Issuer := ⟨0⟩
  /-- The identifiers issued so far. -/
  issued : List MessageId := []
  /-- What the wall clock reads when the identifier of that number is issued, and its suffix. -/
  readings : Nat → UInt64 × UInt32 := fun _ => (0, 0)
  clock : Duration := 0
  /-- How much longer than asked a sleep takes. -/
  overshoot : Duration := 0
  arrivals : List Arrival := []
  /-- The events reported so far. -/
  log : List Event := []

namespace World

/-- The path that names a location from the root. -/
def pathOf (location : Location) : Path :=
  location.foldl Path.child ⟨[Path.slash]⟩

/-- The tree with a file put in place; nothing happens where it cannot be. -/
def place (tree : Tree) (location : Location) (content : Bytes) : Tree :=
  match tree.get? location.dropLast, tree.get? location with
  | some .directory, none | some .directory, some (.file _) => tree.put location (.file content)
  | _, _ => tree

/-- Let time pass; files that are due arrive. -/
def wait (world : World) (duration : Duration) : World :=
  let clock := world.clock + duration
  let (due, later) := world.arrivals.partition (·.due ≤ clock)
  { world with
    clock
    arrivals := later
    tree := due.foldl (fun tree arrival => place tree arrival.location arrival.content) world.tree }

/-- Let time pass until nothing more is to arrive. -/
def settle (world : World) : World :=
  world.wait ((world.arrivals.map Arrival.due).foldl max world.clock - world.clock)

/-- The world after an operation on its tree that may fail. -/
def change (world : World) : Except Fault Tree → Except Fault Unit × World
  | .ok tree => (.ok (), { world with tree })
  | .error fault => (.error fault, world)

/-- Issue an identifier. -/
def issue (world : World) : MessageId × World :=
  let (now, suffix) := world.readings world.issued.length
  let (id, issuer) := world.issuer.issue now suffix
  (id, { world with issuer, issued := world.issued ++ [id] })

/-- The path of the working directory, as long as it is there. -/
def workingDirectory (world : World) : Except Fault Path :=
  match world.tree.get? world.cwd with
  | some .directory => .ok (pathOf world.cwd)
  | _ => .error .notFound

/-- Answer a request. -/
def answer {α : Type} (world : World) : Request α → α × World
  | .workingDirectory => (world.workingDirectory, world)
  | .list directory => ((world.tree.list world.cwd directory).map world.scan.arrange, world)
  | .isFile path => (world.tree.isFile world.cwd path, world)
  | .holds path => (world.tree.holds world.cwd path, world)
  | .read path => (world.tree.read world.cwd path, world)
  | .create path => world.change (world.tree.create world.cwd path)
  | .append path content => world.change (world.tree.append world.cwd path content)
  | .flush path => (world.tree.flush world.cwd path, world)
  | .rename source target => world.change (world.tree.rename world.cwd source target)
  | .remove path => world.change (world.tree.remove world.cwd path)
  | .issueId => world.issue
  | .variable name => (world.environment name, world)
  | .input => (.ok world.input, { world with input := [] })
  | .clock => (world.clock, world)
  | .sleep duration => ((), world.wait (duration + world.overshoot))
  | .report event => ((), { world with log := world.log ++ [event] })

end World

namespace Procedure

/-- Run a procedure in a world. -/
def run {α : Type} : Procedure α → World → α × World
  | done result, world => (result, world)
  | ask request next, world =>
    let (answer, world) := world.answer request
    (next answer).run world

/-- Running one procedure and then another is running both as one. -/
theorem run_andThen {α β : Type} (procedure : Procedure α)
    (next : α → Procedure β) (world : World) :
    (procedure.andThen next).run world =
      (next (procedure.run world).1).run (procedure.run world).2 := by
  induction procedure generalizing world with
  | done _ => rfl
  | ask request rest ih => simp [andThen, run, ih]

end Procedure

end Postbox
