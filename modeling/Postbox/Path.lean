import Postbox.Bytes
import Postbox.Text.Quoted

/-!
# Paths as texts

A path is kept exactly as it was written, with its repeated slashes and its `.` and `..`.  Its
components are what stands between slashes; empty ones and a `.` after the start mean nothing.  The
parent of a path and its file name are read off the components, so a trailing slash or `/.` does not
count, and a path that ends in `..` has no file name.
-/

namespace Postbox

/-- A path as it is written. -/
structure Path where
  bytes : Bytes
deriving DecidableEq, Inhabited

/-- The name of an entry in a directory. -/
abbrev Name := Bytes

namespace Path

/-- The byte that separates components. -/
def slash : UInt8 := 0x2F

/-- The byte that stands for the directory itself. -/
def dot : UInt8 := 0x2E

/-- The path written as a text. -/
def ofText (text : String) : Path :=
  ⟨Bytes.ofText text⟩

/-- The path for a reader. -/
def display (path : Path) : String :=
  path.bytes.display

/-- The path between double quotes. -/
def quoted (path : Path) : String :=
  Text.quoteBytes path.bytes

/-- The path starts at the root. -/
def isAbsolute (path : Path) : Bool :=
  path.bytes.head? == some slash

/-- What stands between slashes, empty stretches included. -/
def segments (bytes : Bytes) : List Bytes :=
  bytes.splitOn slash

/-- The path of another one as seen from this one.  One slash goes between them unless the first is
empty or has one already; an absolute path is seen from everywhere alike. -/
def join (base next : Path) : Path :=
  if next.isAbsolute then next
  else if base.bytes = [] ∨ base.bytes.getLast? = some slash then ⟨base.bytes ++ next.bytes⟩
  else ⟨base.bytes ++ slash :: next.bytes⟩

/-- The path of an entry of the directory at this path. -/
def child (dir : Path) (name : Name) : Path :=
  dir.join ⟨name⟩

/-- The part of a path before its components: the root slash, or a leading `.`. -/
def lead (path : Path) : Bytes :=
  if path.isAbsolute then [slash]
  else if path.bytes = [dot] ∨ [dot, slash].isPrefixOf path.bytes then [dot]
  else []

/-- The part of a path that holds its components. -/
def body (path : Path) : Bytes :=
  path.bytes.drop path.lead.length

/-- The stretch after the last slash. -/
def lastSegment (bytes : Bytes) : Bytes :=
  (bytes.reverse.takeWhile (· != slash)).reverse

/-- The part before the last slash, without it. -/
def beforeLast (bytes : Bytes) : Bytes :=
  bytes.take (bytes.length - (lastSegment bytes).length - 1)

theorem length_beforeLast_lt {bytes : Bytes} (h : bytes ≠ []) :
    (beforeLast bytes).length < bytes.length := by
  have : 0 < bytes.length := List.length_pos_iff.2 h
  simp only [beforeLast, List.length_take]
  omega

/-- A stretch that means nothing: empty, or a `.`. -/
def isIdle (segment : Bytes) : Bool :=
  segment == [] || segment == [dot]

/-- The body without the stretches at its end that mean nothing. -/
def trimBody (bytes : Bytes) : Bytes :=
  if _ : bytes = [] then []
  else if isIdle (lastSegment bytes) then trimBody (beforeLast bytes) else bytes
termination_by bytes.length
decreasing_by exact length_beforeLast_lt ‹_›

/-- The two dots that lead to the parent directory. -/
def dotdot : Bytes := [dot, dot]

/-- The path without its last component, if it has one. -/
def parent? (path : Path) : Option Path :=
  let body := trimBody path.body
  if body ≠ [] then some ⟨path.lead ++ trimBody (beforeLast body)⟩
  else if path.lead = [dot] then some ⟨[]⟩
  else none

/-- The last component, if it is a name. -/
def fileName? (path : Path) : Option Name :=
  let body := trimBody path.body
  if body = [] ∨ lastSegment body = dotdot then none else some (lastSegment body)

/-- The path with its file name replaced, or with one added where it has none. -/
def withFileName (path : Path) (name : Name) : Path :=
  match path.fileName?, path.parent? with
  | some _, some parent => parent.child name
  | _, _ => path.child name

/-- The components of a path after its lead. -/
def components (path : Path) : List Bytes :=
  (segments path.body).filter (fun segment => !isIdle segment)

/-- A path seen from a working directory, so that it no longer depends on where one stands.  `..`
stays as it is, two slashes at the start are kept, and so is a slash at the end. -/
def absolute (cwd path : Path) : Path :=
  let start : Path :=
    if ! path.isAbsolute then cwd
    else if [slash, slash].isPrefixOf path.bytes && ! [slash, slash, slash].isPrefixOf path.bytes
      then ⟨[slash, slash]⟩
    else ⟨[slash]⟩
  let whole := path.components.foldl child start
  if path.bytes.getLast? = some slash then whole.join ⟨[]⟩ else whole

end Path

end Postbox
