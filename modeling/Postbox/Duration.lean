/-!
# Durations

A duration is a number of nanoseconds.  Its text names the largest unit that it fills once, with as
many decimal places as it needs: `1.5s`, `150ms`, `100.001µs`, `0ns`.
-/

namespace Postbox

/-- A length of time in nanoseconds. -/
abbrev Duration := Nat

namespace Duration

/-- A duration of whole milliseconds. -/
def ofMillis (n : Nat) : Duration :=
  n * 1000000

/-- A duration of whole seconds. -/
def ofSecs (n : Nat) : Duration :=
  n * 1000000000

/-- The decimal places of `rest` parts of a unit divided into `10 ^ places`, without trailing
zeros. -/
def fraction (places rest : Nat) : String :=
  let digits := (toString rest).toList
  let padded := List.replicate (places - digits.length) '0' ++ digits
  match (padded.reverse.dropWhile (· == '0')).reverse with
  | [] => ""
  | kept => "." ++ String.ofList kept

/-- A duration in a unit of `10 ^ places` nanoseconds. -/
def inUnit (d : Duration) (places : Nat) (unit : String) : String :=
  toString (d / Nat.pow 10 places) ++ fraction places (d % Nat.pow 10 places) ++ unit

/-- The text of a duration. -/
def text (d : Duration) : String :=
  if 1000000000 ≤ d then inUnit d 9 "s"
  else if 1000000 ≤ d then inUnit d 6 "ms"
  else if 1000 ≤ d then inUnit d 3 "µs"
  else inUnit d 0 "ns"

end Duration

end Postbox
