import Postbox.Toml.Scalar

/-!
# Configuration texts

A configuration text is a sequence of lines: blank ones and comments, headers of tables, and keys
with their values.  `Table.ofText?` gives the table that a whole text describes.
-/

namespace Postbox.Toml

/-- Arrays, braces and dotted keys nest less deep than this. -/
def depthLimit : Nat := 80

/-- A character of a key without quotes. -/
def isBare (c : Char) : Bool :=
  c.isAlphanum || c == '-' || c == '_'

/-- A part of a dotted key. -/
def keyPart : Reader String := do
  spaces
  let key ← basicText <|> literalText <|> String.ofList <$> Reader.someSpan isBare
  spaces
  return key

/-- A dotted key: the parts before the last one, and the last. -/
def dottedKey : Reader (List String × String) := do
  let parts ← Reader.separated keyPart (Reader.char '.')
  match parts.getLast? with
  | some last => if parts.length < depthLimit then return (parts.dropLast, last) else failure
  | none => failure

/-- A dotted key and its value. -/
def assignment (value : Reader Item) : Reader ((List String × String) × Item) := do
  let key ← dottedKey
  Reader.char '='
  spaces
  return (key, ← value)

/-- An array of values. -/
def array (value : Reader Item) : Reader Item := do
  Reader.char '['
  let items ← Reader.optional (do
    let items ← Reader.separated (gap *> value <* gap) (Reader.char ',')
    let _ ← Reader.optional (Reader.char ',')
    return items)
  gap
  Reader.char ']'
  return .array (items.getD [])

/-- A table between braces, on one line. -/
def inlineTable (value : Reader Item) : Reader Item := do
  Reader.char '\x7b'
  let entries ← Reader.optional
    (Reader.separated (assignment value <* spaces) (Reader.char ','))
  spaces
  Reader.char '\x7d'
  let table := (entries.getD []).foldlM (fun table ((path, key), item) =>
    Table.assign? table path key item) Table.empty
  match table with
  | some table => return .inlineTable table
  | none => failure

/-- A value that nests at most the given number of arrays and braces. -/
def valueWithin : Nat → Reader Item
  | 0 => scalar
  | depth + 1 => scalar <|> array (valueWithin depth) <|> inlineTable (valueWithin depth)

/-- A value. -/
def value : Reader Item :=
  valueWithin (depthLimit - 1)

/-- What a line says. -/
inductive Line where
  | blank
  /-- The header of a table. -/
  | header (path : List String) (key : String)
  /-- The header of one more table of a list. -/
  | listHeader (path : List String) (key : String)
  | assignment (path : List String) (key : String) (item : Item)

/-- The header of one more table of a list. -/
def listHeader : Reader Line := do
  Reader.word "[["
  let (path, key) ← dottedKey
  Reader.word "]]"
  return .listHeader path key

/-- The header of a table. -/
def header : Reader Line := do
  Reader.char '['
  let (path, key) ← dottedKey
  Reader.char ']'
  return .header path key

/-- A key with its value. -/
def assignmentLine : Reader Line := do
  let ((path, key), item) ← assignment value
  return .assignment path key item

/-- A line with its end. -/
def line : Reader Line := do
  spaces
  (newline *> pure Line.blank) <|>
    (comment *> lineEnd *> pure Line.blank) <|>
    ((listHeader <|> header <|> assignmentLine) <* lineRest)

/-- All lines of a text.  A mark of byte order at the start does not count. -/
def lines : Reader (List Line) := do
  let _ ← Reader.optional (Reader.char '\uFEFF')
  let found ← Reader.many line
  spaces
  return found

/-- A table under construction, and the header it is being filled under. -/
structure Draft where
  root : Table
  current : List String

namespace Draft

/-- Take account of a line. -/
def add? (draft : Draft) : Line → Option Draft
  | .blank => some draft
  | .header path key => (draft.root.openTable? path key).map (⟨·, path ++ [key]⟩)
  | .listHeader path key => (draft.root.openListed? path key).map (⟨·, path ++ [key]⟩)
  | .assignment path key item =>
    (draft.root.change? false (·.assign? path key item) draft.current).map (⟨·, draft.current⟩)

end Draft

/-- The table that a text describes, if it is well formed and says nothing twice. -/
def Table.ofText? (text : String) : Option Table := do
  let lines ← lines.whole? text
  return (← lines.foldlM Draft.add? ⟨.empty, []⟩).root

end Postbox.Toml
