import Postbox.Bytes
import Postbox.Number.Hex
import Postbox.Text.Combining
import Postbox.Text.Unprintable

/-!
# Quoted texts

A quoted text stands between double quotes and shows every character that a reader could miss by
an escape: the backslash and the double quote, the usual control characters by a letter, and what
is unprintable or combining by its code point.  Bytes that encode no character are shown in
hexadecimal.
-/

namespace Postbox.Text

/-- A character as it stands inside a quoted text. -/
def escape (c : Char) : List Char :=
  if c = '\x00' then ['\\', '0']
  else if c = '\t' then ['\\', 't']
  else if c = '\r' then ['\\', 'r']
  else if c = '\n' then ['\\', 'n']
  else if c = '\\' then ['\\', '\\']
  else if c = '"' then ['\\', '"']
  else if isCombining c || isUnprintable c then
    ['\\', 'u', '\x7b'] ++ Hex.minimal c.toNat ++ ['\x7d']
  else [c]

/-- A text between double quotes. -/
def quote (text : String) : String :=
  String.ofList (['"'] ++ text.toList.flatMap escape ++ ['"'])

/-- A byte outside any character as it stands inside a quoted text: two capital digits. -/
def escapeByte (b : UInt8) : List Char :=
  ['\\', 'x'] ++ (Hex.digits 2 b.toNat).map Char.toUpper

/-- A byte string between double quotes. -/
def quoteBytes (bytes : Bytes) : String :=
  String.ofList (['"'] ++ bytes.pieces.flatMap (fun
    | .character c => escape c
    | .broken broken => broken.flatMap escapeByte) ++ ['"'])

end Postbox.Text
