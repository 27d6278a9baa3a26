import Postbox.Number.Hex

/-!
# JSON texts

Values written as JSON, on one line or laid out with two blanks for every level.
-/

namespace Postbox

/-- A value that can be written as JSON. -/
inductive Json where
  | null
  | number (value : Nat)
  | text (value : String)
  | array (items : List Json)
  /-- Named values, in the order in which they are written. -/
  | object (fields : List (String × Json))

namespace Json

/-- A character as it stands inside a JSON text. -/
def escape (c : Char) : List Char :=
  if c = '"' then ['\\', '"']
  else if c = '\\' then ['\\', '\\']
  else if c = '\x08' then ['\\', 'b']
  else if c = '\x0c' then ['\\', 'f']
  else if c = '\n' then ['\\', 'n']
  else if c = '\r' then ['\\', 'r']
  else if c = '\t' then ['\\', 't']
  else if c < ' ' then ['\\', 'u'] ++ Hex.digits 4 c.toNat
  else [c]

/-- A text between double quotes. -/
def quote (text : String) : String :=
  String.ofList (['"'] ++ text.toList.flatMap escape ++ ['"'])

mutual

/-- A value on one line, without blanks. -/
def compact : Json → String
  | null => "null"
  | number value => toString value
  | text value => quote value
  | array items => "[" ++ ",".intercalate (compactItems items) ++ "]"
  | object fields => "\x7b" ++ ",".intercalate (compactFields fields) ++ "\x7d"

/-- Values on one line each. -/
def compactItems : List Json → List String
  | [] => []
  | item :: rest => item.compact :: compactItems rest

/-- Named values on one line each. -/
def compactFields : List (String × Json) → List String
  | [] => []
  | (name, value) :: rest => (quote name ++ ":" ++ value.compact) :: compactFields rest

end

/-- The start of a line at a level. -/
def indent (level : Nat) : String :=
  "\n" ++ String.ofList (List.replicate (2 * level) ' ')

/-- Parts between brackets, each on a line of its own. -/
def layOut (level : Nat) (opening closing : String) (parts : List String) : String :=
  if parts.isEmpty then opening ++ closing
  else
    opening ++ indent (level + 1) ++ ("," ++ indent (level + 1)).intercalate parts ++
      indent level ++ closing

mutual

/-- A value laid out at a level. -/
def prettyAt (level : Nat) : Json → String
  | null => "null"
  | number value => toString value
  | text value => quote value
  | array items => layOut level "[" "]" (prettyItems (level + 1) items)
  | object fields => layOut level "\x7b" "\x7d" (prettyFields (level + 1) fields)

/-- Values laid out at a level. -/
def prettyItems (level : Nat) : List Json → List String
  | [] => []
  | item :: rest => item.prettyAt level :: prettyItems level rest

/-- Named values laid out at a level. -/
def prettyFields (level : Nat) : List (String × Json) → List String
  | [] => []
  | (name, value) :: rest =>
    (quote name ++ ": " ++ value.prettyAt level) :: prettyFields level rest

end

/-- A value laid out. -/
def pretty (value : Json) : String :=
  value.prettyAt 0

end Json

end Postbox
