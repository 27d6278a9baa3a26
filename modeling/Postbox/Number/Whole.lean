/-!
# Whole numbers

Reading a whole number below 2^64 from decimal digits, with one plus sign allowed in front.
-/

namespace Postbox

/-- Why a text is no whole number below 2^64. -/
inductive WholeError where
  | empty
  | badDigit
  | tooLarge
deriving DecidableEq, Repr

/-- What is said of a text that is no whole number. -/
def WholeError.message : WholeError → String
  | empty => "cannot parse integer from empty string"
  | badDigit => "invalid digit found in string"
  | tooLarge => "number too large to fit in target type"

namespace Whole

/-- The first number out of range. -/
def bound : Nat := UInt64.size

/-- The value of a decimal digit. -/
def digit? (c : Char) : Option Nat :=
  if '0' ≤ c ∧ c ≤ '9' then some (c.toNat - 0x30) else none

/-- Read digits after a number already read.  The first fault from the left is the one reported. -/
def extend (n : Nat) : List Char → Except WholeError Nat
  | [] => .ok n
  | c :: rest =>
    match digit? c with
    | none => .error .badDigit
    | some d => if n * 10 + d < bound then extend (n * 10 + d) rest else .error .tooLarge

/-- Read a whole number. -/
def read (text : String) : Except WholeError Nat :=
  match text.toList with
  | [] => .error .empty
  | ['+'] => .error .badDigit
  | '+' :: digits => extend 0 digits
  | digits => extend 0 digits

theorem extend_lt {n m : Nat} {cs : List Char} (hn : n < bound) (h : extend n cs = .ok m) :
    m < bound := by
  induction cs generalizing n with
  | nil => cases h; exact hn
  | cons c rest ih =>
    unfold extend at h
    split at h
    · cases h
    · split at h
      · rename_i hlt
        exact ih hlt h
      · cases h

/-- What is read stays below the bound. -/
theorem read_lt {text : String} {n : Nat} (h : read text = .ok n) : n < bound := by
  have h0 : 0 < bound := by decide
  unfold read at h
  split at h
  · cases h
  · cases h
  · exact extend_lt h0 h
  · exact extend_lt h0 h

end Whole

end Postbox
