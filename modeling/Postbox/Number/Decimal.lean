import Postbox.Number.Binary64

/-!
# Decimal fractions

The text of a decimal fraction and the binary number it stands for.  Reading rounds the exact value
once.  Writing uses the coarsest power of ten of which a multiple reads back as the number, and of
two such multiples the nearer one.
-/

namespace Postbox

/-- A decimal fraction: `digits * 10 ^ exponent` with a sign. -/
structure Decimal where
  negative : Bool
  digits : Nat
  exponent : Int
deriving DecidableEq, Repr

/-- Why a text is no binary number. -/
inductive DecimalError where
  | empty
  | malformed
deriving DecidableEq, Repr

/-- What is said of a text that is no binary number. -/
def DecimalError.message : DecimalError → String
  | empty => "cannot parse float from empty string"
  | malformed => "invalid float literal"

namespace Decimal

/-- The number of decimal digits of a positive number. -/
def length (n : Nat) : Nat :=
  (Nat.toDigits 10 n).length

/-- The binary number nearest to a decimal fraction.  Far out of range the value need not be worked
out: it is infinite or zero. -/
def toBinary64 (d : Decimal) : Binary64 :=
  let place := d.exponent + length d.digits
  if d.digits = 0 ∨ place < -330 then .ofMagnitude d.negative 0
  else if 310 < place then .infinity d.negative
  else
    .nearest d.negative (d.digits * Nat.pow 10 d.exponent.toNat * Nat.pow 2 Binary64.scale)
      (Nat.pow 10 (-d.exponent).toNat)

/-- The decimal digits at the start of a text, and the rest. -/
def digitRun (cs : List Char) : List Char × List Char :=
  (cs.takeWhile Char.isDigit, cs.dropWhile Char.isDigit)

/-- The number that a run of digits spells. -/
def digitsValue (cs : List Char) : Nat :=
  cs.foldl (fun n c => n * 10 + (c.toNat - 0x30)) 0

/-- A sign at the start of a text, and the rest. -/
def signed : List Char → Bool × List Char
  | '-' :: rest => (true, rest)
  | '+' :: rest => (false, rest)
  | cs => (false, cs)

/-- The digits after a decimal point at the start of a text, and the rest. -/
def fractionPart : List Char → List Char × List Char
  | '.' :: rest => digitRun rest
  | cs => ([], cs)

/-- The exponent at the end of a text. -/
def exponentPart? : List Char → Option Int
  | [] => some 0
  | c :: cs =>
    let (negative, rest) := signed cs
    let (digits, rest) := digitRun rest
    if (c = 'e' ∨ c = 'E') ∧ digits ≠ [] ∧ rest = [] then
      some (if negative then -(digitsValue digits : Int) else digitsValue digits)
    else none

/-- The decimal fraction that a text without a sign spells: digits with or without a decimal point
among or around them, then an exponent if need be. -/
def readUnsigned? (negative : Bool) (cs : List Char) : Option Decimal :=
  let (whole, rest) := digitRun cs
  let (fraction, rest) := fractionPart rest
  if whole = [] ∧ fraction = [] then none
  else (exponentPart? rest).map fun exponent =>
    ⟨negative, digitsValue (whole ++ fraction), exponent - fraction.length⟩

/-- The value that a word stands for. -/
def word? (negative : Bool) (cs : List Char) : Option Binary64 :=
  let word := String.ofList (cs.map Char.toLower)
  if word = "inf" ∨ word = "infinity" then some (.infinity negative)
  else if word = "nan" then some .undefined
  else none

/-- Read a binary number. -/
def read (text : String) : Except DecimalError Binary64 :=
  let (negative, cs) := signed text.toList
  if text = "" then .error .empty
  else match readUnsigned? negative cs with
    | some decimal => .ok decimal.toBinary64
    | none => match word? negative cs with
      | some value => .ok value
      | none => .error .malformed

/-- The multiple of `10 ^ exponent` that reads back as a positive finite number, if there is one:
one of the two neighbours of the number among the multiples.  All is measured in quarters of units;
the ends of the range that reads back belong to it if the last bit is zero. -/
def readingBack? (x : Binary64) (exponent : Int) : Option Nat :=
  let up := Nat.pow 10 (-exponent).toNat
  let grid := Nat.pow 10 exponent.toNat * Nat.pow 2 (Binary64.scale + 2)
  let value := 4 * x.units * up
  let gap := Nat.pow 2 x.doublings * up
  let lowest := if x.magnitudeBits % Nat.pow 2 Binary64.fractionWidth = 0 ∧ x.doublings ≠ 0
    then value - gap else value - 2 * gap
  let highest := value + 2 * gap
  let holds (point : Nat) : Bool :=
    if x.magnitudeBits % 2 = 0 then lowest ≤ point ∧ point ≤ highest
    else lowest < point ∧ point < highest
  let below := value / grid
  let above := below + 1
  let belowHolds := holds (below * grid)
  let aboveHolds := holds (above * grid)
  if aboveHolds && (!belowHolds || above * grid - value ≤ value - below * grid) then some above
  else if belowHolds then some below
  else none

/-- The exponents of the powers of ten to try, the coarsest first. -/
def exponents : List Int :=
  (List.range 633).map fun n : Nat => 308 - Int.ofNat n

/-- The shortest digits that read back as a positive finite magnitude. -/
def shortest (x : Binary64) : Decimal :=
  match exponents.findSome? fun exponent =>
    (readingBack? x exponent).map fun digits => (digits, exponent) with
  | some (digits, exponent) => ⟨x.isNegative, digits, exponent⟩
  | none => ⟨x.isNegative, 0, 0⟩

/-- A decimal fraction in positional notation. -/
def positional (d : Decimal) : String :=
  let digits := (toString d.digits).toList
  let places := (-d.exponent).toNat
  let padded := List.replicate (places + 1 - digits.length) '0' ++ digits
  let whole := padded.take (padded.length - places)
  let fraction := padded.drop (padded.length - places)
  let zeros := if d.digits = 0 then [] else List.replicate d.exponent.toNat '0'
  (if d.negative then "-" else "") ++ String.ofList (whole ++ zeros) ++
    (if fraction = [] then "" else "." ++ String.ofList fraction)

/-- The text of a binary number: the fewest digits that read back, never an exponent. -/
def text (x : Binary64) : String :=
  if x.isUndefined then "NaN"
  else if x.isFinite then (shortest x).positional
  else if x.isNegative then "-inf" else "inf"

end Decimal

end Postbox
