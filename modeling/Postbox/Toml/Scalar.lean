import Postbox.Number.Decimal
import Postbox.Toml.Item
import Postbox.Toml.Quoted

/-!
# Numbers and moments

The values written without quotes: whole numbers in four bases, decimal fractions, dates and times,
and a few words.
-/

namespace Postbox.Toml

/-- Digits of a class, with an underscore allowed between any two; the underscores are left out. -/
def digitGroups (isDigit : Char → Bool) : Reader (List Char) := do
  let first ← Reader.someSpan isDigit
  let rest ← Reader.many (Reader.char '_' *> Reader.someSpan isDigit)
  return first ++ rest.flatten

/-- A sign, or none. -/
def sign : Reader (List Char) := do
  return (← Reader.optional (Reader.one fun c => c == '+' || c == '-')).toList

/-- Decimal digits without leading zeros. -/
def plainDigits : Reader (List Char) := do
  let digits ← (Reader.char '0' *> pure ['0']) <|> digitGroups Char.isDigit
  return digits

/-- An integer in the range of 64 bits with a sign. -/
def inRange (n : Int) : Reader Item :=
  if Int64.minValue.toInt ≤ n ∧ n ≤ Int64.maxValue.toInt then pure (.integer n) else failure

/-- An integer in another base, behind its mark. -/
def basedInteger (mark : String) (base : Nat) : Reader Item := do
  Reader.word mark
  let digits ← digitGroups fun c => (hexValue? c).any (· < base)
  inRange (digits.foldl (fun n c => n * base + (hexValue? c).getD 0) 0 : Nat)

/-- An integer in decimal digits. -/
def decimalInteger : Reader Item := do
  let negative := (← sign) == ['-']
  let value := Decimal.digitsValue (← plainDigits)
  inRange (if negative then -(value : Int) else value)

/-- An integer. -/
def integer : Reader Item :=
  basedInteger "0x" 16 <|> basedInteger "0o" 8 <|> basedInteger "0b" 2 <|> decimalInteger

/-- The exponent of a decimal fraction. -/
def exponent : Reader (List Char) := do
  let mark ← Reader.one fun c => c == 'e' || c == 'E'
  let direction ← sign
  return mark :: direction ++ (← digitGroups Char.isDigit)

/-- The digits behind a decimal point, and an exponent if there is one. -/
def fraction : Reader (List Char) := do
  Reader.char '.'
  let digits ← digitGroups Char.isDigit
  return '.' :: digits ++ ((← Reader.optional exponent).getD [])

/-- A decimal fraction.  One that is too great is refused, though not one that is too small. -/
def decimalFraction : Reader Item := do
  let start ← sign
  let whole ← plainDigits
  let rest ← exponent <|> fraction
  match Decimal.read (String.ofList (start ++ whole ++ rest)) with
  | .ok value => if value = .infinity false then failure else return .float value
  | .error _ => failure

/-- The numbers that are written as words. -/
def wordNumber : Reader Item := do
  let negative := (← sign) == ['-']
  (Reader.word "inf" *> pure (.float (.infinity negative))) <|>
    (Reader.word "nan" *> pure (.float .undefined))

/-- A number of exactly the given count of decimal digits within bounds. -/
def numberWithin (count low high : Nat) : Reader Nat := do
  let digits ← (List.replicate count ()).mapM fun _ => Reader.one Char.isDigit
  let value := Decimal.digitsValue digits
  if low ≤ value ∧ value ≤ high then return value else failure

/-- The number of days in a month. -/
def daysIn (year month : Nat) : Nat :=
  if month = 2 then
    if year % 4 = 0 ∧ (year % 100 ≠ 0 ∨ year % 400 = 0) then 29 else 28
  else if month = 4 ∨ month = 6 ∨ month = 9 ∨ month = 11 then 30
  else 31

/-- A date. -/
def date : Reader Unit := do
  let year ← numberWithin 4 0 9999
  Reader.char '-'
  let month ← numberWithin 2 1 12
  Reader.char '-'
  let _ ← numberWithin 2 1 (daysIn year month)

/-- A time of day.  A leap second is allowed. -/
def time : Reader Unit := do
  let _ ← numberWithin 2 0 23
  Reader.char ':'
  let _ ← numberWithin 2 0 59
  Reader.char ':'
  let _ ← numberWithin 2 0 60
  let _ ← Reader.optional (Reader.char '.' *> Reader.someSpan Char.isDigit)

/-- The difference from universal time. -/
def offset : Reader Unit :=
  (do let _ ← Reader.one fun c => c == 'Z' || c == 'z') <|> (do
    let _ ← Reader.one fun c => c == '+' || c == '-'
    let _ ← numberWithin 2 0 23
    Reader.char ':'
    let _ ← numberWithin 2 0 59)

/-- A date, a time, or a date with a time. -/
def moment : Reader Item :=
  (do
    date
    let _ ← Reader.optional (do
      let _ ← Reader.one fun c => c == 'T' || c == 't' || c == ' '
      time
      let _ ← Reader.optional offset)
    return .moment) <|>
  (time *> pure .moment)

/-- The words for truth values. -/
def truth : Reader Item :=
  (Reader.word "true" *> pure (.boolean true)) <|> (Reader.word "false" *> pure (.boolean false))

/-- A value of a single piece. -/
def scalar : Reader Item :=
  .text <$> quotedText <|> moment <|> decimalFraction <|> wordNumber <|> integer <|> truth

end Postbox.Toml
