/-!
# Hexadecimal digits

Numbers are written with the digits 0-9a-f, either in a fixed number of places or in as few as
needed, and read back from that spelling only.
-/

namespace Postbox.Hex

/-- The digit of a value below sixteen. -/
def digit (value : Nat) : Char :=
  if value < 10 then Char.ofNat (0x30 + value) else Char.ofNat (0x57 + value)

/-- The value of a digit; a capital letter is none. -/
def value? (c : Char) : Option Nat :=
  if '0' ≤ c ∧ c ≤ '9' then some (c.toNat - 0x30)
  else if 'a' ≤ c ∧ c ≤ 'f' then some (c.toNat - 0x57)
  else none

/-- The last `width` digits of a number. -/
def digits : (width : Nat) → Nat → List Char
  | 0, _ => []
  | width + 1, n => digits width (n / 16) ++ [digit (n % 16)]

/-- The number that a run of digits spells. -/
def read? (cs : List Char) : Option Nat :=
  cs.foldlM (fun n c => (value? c).map (n * 16 + ·)) 0

/-- The number of digits needed for a number, at least one. -/
def width (n : Nat) : Nat :=
  n.log2 / 4 + 1

/-- A number in as few digits as needed. -/
def minimal (n : Nat) : List Char :=
  digits (width n) n

@[simp] theorem length_digits (w n : Nat) : (digits w n).length = w := by
  induction w generalizing n with
  | zero => rfl
  | succ w ih => simp [digits, ih]

end Postbox.Hex
