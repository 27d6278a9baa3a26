import Postbox.Files.Walk

/-!
# Operations on files

What the operations that a mailbox needs do to a file tree, and when they fail.  Each takes the
location of the working directory, from which relative paths are followed; an operation that fails
leaves the tree as it was.
-/

namespace Postbox.Tree

/-- A name at the end of a location is not too long for an entry. -/
def checkName (location : Location) : Except Fault Unit :=
  match location.getLast? with
  | some name => if Path.maxName < name.length then .error .nameTooLong else .ok ()
  | none => .ok ()

/-- The names in a directory. -/
def list (tree : Tree) (cwd : Location) (path : Path) : Except Fault (List Name) := do
  let location ← tree.locate cwd path
  tree.inDirectory location
  return tree.names location

/-- A path leads to a regular file. -/
def isFile (tree : Tree) (cwd : Location) (path : Path) : Bool :=
  match tree.locate cwd path with
  | .ok location => match tree.get? location with
    | some (.file _) => true
    | _ => false
  | .error _ => false

/-- A path leads to some entry. -/
def holds (tree : Tree) (cwd : Location) (path : Path) : Bool :=
  (tree.locate cwd path).isOk

/-- The content of a file. -/
def read (tree : Tree) (cwd : Location) (path : Path) : Except Fault Bytes := do
  let location ← tree.locate cwd path
  match tree.get? location with
  | some (.file content) => return content
  | some .directory => throw .isDirectory
  | none => throw .notFound

/-- Make a new empty file where no entry is. -/
def create (tree : Tree) (cwd : Location) (path : Path) : Except Fault Tree := do
  let location ← tree.target cwd path
  checkName location
  match tree.get? location with
  | some _ => throw .alreadyExists
  | none => return tree.put location (.file [])

/-- Write bytes behind the content of a file. -/
def append (tree : Tree) (cwd : Location) (path : Path) (bytes : Bytes) : Except Fault Tree := do
  let location ← tree.locate cwd path
  match tree.get? location with
  | some (.file content) => return tree.put location (.file (content ++ bytes))
  | some .directory => throw .isDirectory
  | none => throw .notFound

/-- Bring what a path leads to safely onto the disk.  The tree does not show it. -/
def flush (tree : Tree) (cwd : Location) (path : Path) : Except Fault Unit := do
  let _ ← tree.locate cwd path

/-- Remove a file. -/
def remove (tree : Tree) (cwd : Location) (path : Path) : Except Fault Tree := do
  let location ← tree.target cwd path
  checkName location
  match tree.get? location with
  | some (.file _) => return tree.erase location
  | some .directory => throw .isDirectory
  | none => throw .notFound

/-- Give the entry at one location another location, in place of what was there: a file replaces a
file, a directory an empty directory. -/
def moveEntry (tree : Tree) (source target : Location) : Except Fault Tree :=
  match tree.get? source with
  | none => .error .notFound
  | some (.file content) => do
    checkName target
    match tree.get? target with
    | some .directory => throw .isDirectory
    | _ => return (tree.erase source).put target (.file content)
  | some .directory => do
    checkName target
    if source = target then return tree
    if source.isPrefixOf target then throw .invalidArgument
    match tree.get? target with
    | some (.file _) => throw .notDirectory
    | some .directory =>
      if tree.names target = [] then return (tree.erase target).graft source target
      else throw .directoryNotEmpty
    | none => return tree.graft source target

/-- Rename an entry. -/
def rename (tree : Tree) (cwd : Location) (source target : Path) : Except Fault Tree := do
  let sourceAt ← tree.target cwd source
  let targetAt ← tree.target cwd target
  checkName sourceAt
  tree.moveEntry sourceAt targetAt

end Postbox.Tree
