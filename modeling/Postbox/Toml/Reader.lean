/-!
# Readers

A reader takes something off the front of a list of characters, or fails and takes nothing.  Of two
alternatives the second is tried where the first fails.
-/

namespace Postbox.Toml

/-- What takes a value off the front of a text. -/
abbrev Reader := StateT (List Char) Option

namespace Reader

/-- One character of a class. -/
def one (holds : Char → Bool) : Reader Char
  | c :: rest => if holds c then some (c, rest) else none
  | [] => none

/-- One given character. -/
def char (c : Char) : Reader Unit := do
  let _ ← one (· == c)

/-- A given word. -/
def word (w : String) : Reader Unit
  | cs => if w.toList.isPrefixOf cs then some ((), cs.drop w.toList.length) else none

/-- All characters of a class that come next. -/
def span (holds : Char → Bool) : Reader (List Char)
  | cs => some (cs.takeWhile holds, cs.dropWhile holds)

/-- As `span`, at least one. -/
def someSpan (holds : Char → Bool) : Reader (List Char) := do
  let c ← one holds
  return c :: (← span holds)

/-- A value, or nothing where it cannot be read. -/
def optional {α : Type} (item : Reader α) : Reader (Option α) :=
  (some <$> item) <|> pure none

/-- Values one after the other, at most a given number. -/
def upTo {α : Type} : Nat → Reader α → Reader (List α)
  | 0, _ => pure []
  | limit + 1, item => do
    match ← optional item with
    | some a => return a :: (← upTo limit item)
    | none => return []

/-- Values one after the other, as many as there are, each of at least one character. -/
def many {α : Type} (item : Reader α) : Reader (List α) := do
  upTo (← get).length item

/-- Values with a separator between two of them, at least one value. -/
def separated {α : Type} (item : Reader α) (separator : Reader Unit) : Reader (List α) := do
  let first ← item
  return first :: (← many (separator *> item))

/-- The text is at its end. -/
def atEnd : Reader Unit
  | [] => some ((), [])
  | _ :: _ => none

/-- What a reader makes of a whole text. -/
def whole? {α : Type} (reader : Reader α) (text : String) : Option α :=
  ((reader <* atEnd).run text.toList).map (·.1)

end Reader

/-- A character outside ASCII. -/
def isForeign (c : Char) : Bool :=
  '\x80' ≤ c

/-- A space or a tab. -/
def isSpace (c : Char) : Bool :=
  c == ' ' || c == '\t'

/-- A character that a comment can hold. -/
def isCommentChar (c : Char) : Bool :=
  c == '\t' || (' ' ≤ c && c ≤ '~') || isForeign c

/-- Spaces and tabs. -/
def spaces : Reader Unit := do
  let _ ← Reader.span isSpace

/-- The end of a line. -/
def newline : Reader Unit :=
  Reader.char '\n' <|> Reader.word "\r\n"

/-- A comment, up to the end of its line. -/
def comment : Reader Unit := do
  Reader.char '#'
  let _ ← Reader.span isCommentChar

/-- The end of a line or of the text. -/
def lineEnd : Reader Unit :=
  newline <|> Reader.atEnd

/-- What may stand between a value and the end of its line, and that end. -/
def lineRest : Reader Unit := do
  spaces
  let _ ← Reader.optional comment
  lineEnd

/-- Spaces, comments and ends of lines, as they may stand between the items of an array. -/
def gap : Reader Unit := do
  spaces
  let _ ← Reader.many ((newline <|> comment) *> spaces)

end Postbox.Toml
