import Postbox.Files.Fault
import Postbox.Files.Tree

/-!
# Where a path leads

A path is followed through a tree one stretch at a time: from the root or from where one stands,
through directories only, up at every `..` and never above the root.
-/

namespace Postbox

namespace Path

/-- One move along a path. -/
inductive Move where
  /-- Stay, in a directory. -/
  | stay
  /-- To the parent directory. -/
  | up
  /-- To the entry of that name. -/
  | down (name : Name)
deriving DecidableEq

/-- The move that a stretch between slashes stands for. -/
def Move.ofSegment (segment : Bytes) : Move :=
  if segment = [] ∨ segment = [dot] then .stay
  else if segment = dotdot then .up
  else .down segment

/-- The moves of a path.  A slash at the end asks for a directory, as a `.` there does. -/
def moves (path : Path) : List Move :=
  (segments path.bytes).map Move.ofSegment

/-- The longest name of an entry, in bytes. -/
def maxName : Nat := 255

/-- The longest path, in bytes. -/
def maxLength : Nat := 4095

/-- What is wrong with a path before it is followed. -/
def fault? (path : Path) : Option Fault :=
  if path.bytes.contains 0 then some .zeroByte
  else if path.bytes = [] then some .notFound
  else if maxLength < path.bytes.length then some .nameTooLong
  else none

end Path

namespace Tree

/-- One stands in a directory. -/
def inDirectory (tree : Tree) (place : Location) : Except Fault Unit :=
  match tree.get? place with
  | some .directory => .ok ()
  | some (.file _) => .error .notDirectory
  | none => .error .notFound

/-- Make one move. -/
def move (tree : Tree) (place : Location) (step : Path.Move) : Except Fault Location := do
  tree.inDirectory place
  match step with
  | .stay => return place
  | .up => return place.dropLast
  | .down name =>
    if Path.maxName < name.length then throw .nameTooLong
    if (tree.get? (place ++ [name])).isNone then throw .notFound
    return place ++ [name]

/-- Make moves one after the other. -/
def follow (tree : Tree) : Location → List Path.Move → Except Fault Location
  | place, [] => .ok place
  | place, step :: rest => do tree.follow (← tree.move place step) rest

/-- Where one starts to follow a path. -/
def start (cwd : Location) (path : Path) : Location :=
  if path.isAbsolute then [] else cwd

/-- The location of the entry that a path leads to. -/
def locate (tree : Tree) (cwd : Location) (path : Path) : Except Fault Location :=
  match path.fault? with
  | some fault => .error fault
  | none => tree.follow (start cwd path) path.moves

/-- The location that a path names, whether or not an entry is there: the directory has to be.  A
path that ends in a slash, `.` or `..` names none. -/
def target (tree : Tree) (cwd : Location) (path : Path) : Except Fault Location :=
  match path.fault? with
  | some fault => .error fault
  | none => do
    let place ← tree.follow (start cwd path) path.moves.dropLast
    tree.inDirectory place
    match path.moves.getLast? with
    | some (.down name) => return place ++ [name]
    | _ => throw .invalidArgument

end Tree

end Postbox
