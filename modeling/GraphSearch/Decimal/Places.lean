import GraphSearch.Numeric.Binary64

/-!
# Decimals with a fixed number of places

The exact value of a number is rounded to the given number of decimal places, a half to the even
neighbour, and all places are written.
-/

namespace GraphSearch.Decimal

open Numeric (Binary64 roundQuotient)

/-- The text of `n / 10 ^ places`, with all places. -/
def withPlaces (places n : Nat) : String :=
  let whole := toString (n / Nat.pow 10 places)
  let rest := Nat.toDigits 10 (n % Nat.pow 10 places)
  if places = 0 then whole
  else whole ++ "." ++ String.ofList (List.replicate (places - rest.length) '0' ++ rest)

/-- The number rounded to so many decimal places. -/
def fixed (places : Nat) (a : Binary64) : String :=
  withPlaces places (roundQuotient (a.units * Nat.pow 10 places) Binary64.unitsPerOne)

end GraphSearch.Decimal
