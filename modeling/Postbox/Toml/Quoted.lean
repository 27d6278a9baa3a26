import Postbox.Toml.Reader

/-!
# Quoted texts

A text stands between double quotes, with escapes, or between single quotes, as it is.  Three quotes
on either side let it run over several lines.
-/

namespace Postbox.Toml

/-- A character that stands for itself between double quotes. -/
def isPlain (c : Char) : Bool :=
  isCommentChar c && c != '"' && c != '\\'

/-- A character that stands for itself between single quotes. -/
def isLiteral (c : Char) : Bool :=
  isCommentChar c && c != '\''

/-- The value of a hexadecimal digit; capital letters count. -/
def hexValue? (c : Char) : Option Nat :=
  if c.isDigit then some (c.toNat - 0x30)
  else if 'a' ≤ c ∧ c ≤ 'f' then some (c.toNat - 0x57)
  else if 'A' ≤ c ∧ c ≤ 'F' then some (c.toNat - 0x37)
  else none

/-- A given number of hexadecimal digits. -/
def hexDigits : Nat → Nat → Reader Nat
  | 0, value => pure value
  | count + 1, value => do
    let c ← Reader.one fun c => (hexValue? c).isSome
    hexDigits count (value * 16 + (hexValue? c).getD 0)

/-- The character with a given code point. -/
def codePoint (digits : Nat) : Reader Char := do
  let value ← hexDigits digits 0
  if value.isValidChar then return Char.ofNat value else failure

/-- A character behind a backslash. -/
def escaped : Reader Char := do
  Reader.char '\\'
  match ← Reader.one fun _ => true with
  | 'b' => return '\x08'
  | 'f' => return '\x0c'
  | 'n' => return '\n'
  | 'r' => return '\r'
  | 't' => return '\t'
  | '"' => return '"'
  | '\\' => return '\\'
  | 'u' => codePoint 4
  | 'U' => codePoint 8
  | _ => failure

/-- A text between double quotes on one line. -/
def basicText : Reader String := do
  Reader.char '"'
  let pieces ← Reader.many (Reader.someSpan isPlain <|> (fun c => [c]) <$> escaped)
  Reader.char '"'
  return String.ofList pieces.flatten

/-- A text between single quotes on one line. -/
def literalText : Reader String := do
  Reader.char '\''
  let content ← Reader.span isLiteral
  Reader.char '\''
  return String.ofList content

/-- A backslash at the end of a line: nothing up to the next character that is no blank. -/
def joinedLines : Reader (List Char) := do
  Reader.char '\\'
  spaces
  newline
  let _ ← Reader.many (newline <|> (do let _ ← Reader.someSpan isSpace))
  return []

/-- The end of a line inside a text. -/
def innerNewline : Reader (List Char) := do
  newline
  return ['\n']

/-- The rest of a text over several lines, up to three quotes.  One or two more quotes before these
belong to the text, as do one or two quotes anywhere before. -/
def upToQuotes (quote : Char) (piece : Reader (List Char)) : Nat → Reader (List Char)
  | 0 => failure
  | limit + 1 => do
    let quotes ← Reader.span (· == quote)
    if 5 < quotes.length then failure
    else if 3 ≤ quotes.length then return quotes.drop 3
    else
      let content ← piece
      return quotes ++ content ++ (← upToQuotes quote piece limit)

/-- A text over several lines between three quotes.  An end of line right after the first three is
not part of it. -/
def longText (quote : Char) (piece : Reader (List Char)) : Reader String := do
  Reader.word (String.ofList [quote, quote, quote])
  let _ ← Reader.optional newline
  return String.ofList (← upToQuotes quote piece (← get).length)

/-- A quoted text of any kind. -/
def quotedText : Reader String :=
  longText '"' (Reader.someSpan isPlain <|> joinedLines <|> (fun c => [c]) <$> escaped <|>
    innerNewline) <|>
  basicText <|>
  longText '\'' (Reader.someSpan isLiteral <|> innerNewline) <|>
  literalText

end Postbox.Toml
