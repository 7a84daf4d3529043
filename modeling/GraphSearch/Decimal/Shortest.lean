import GraphSearch.Decimal.Places

/-!
# The shortest decimal that reads back

A number is written with as few digits as will do: so few that no decimal with fewer reads back as
the number, and of those that do with that many the nearest. All digits are written out, without an
exponent.

Decimals with few digits are the multiples of a large power of ten. So the powers are tried from the
largest down, and at each the two multiples next to the number. The first power at which one of them
reads back gives the digits: if a multiple of it between those two and the number did, so would
they.
-/

namespace GraphSearch.Decimal

open Numeric (Binary64)

/-- A multiple `count` of the power of ten that lies `places` below `10 ^ top`. -/
structure GridPoint where
  /-- The exponent of the largest power of ten that is tried. -/
  top : Nat
  /-- How far below it the power is. -/
  places : Nat
  /-- The multiple. -/
  count : Nat

namespace GridPoint

/-- The number of the format that is nearest to the point. -/
def toBinary64 (p : GridPoint) : Binary64 :=
  .ofRatio (p.count * Nat.pow 10 p.top) (Nat.pow 10 p.places)

/-- The point, all digits written out. -/
def text (p : GridPoint) : String :=
  if p.places ≤ p.top then toString (p.count * Nat.pow 10 (p.top - p.places))
  else withPlaces (p.places - p.top) p.count

end GridPoint

/-- Of the two multiples next to `a`, the nearest that reads back as `a`. -/
def nextOnGrid? (a : Binary64) (top places : Nat) : Option GridPoint :=
  let n := a.units * Nat.pow 10 places
  let d := Binary64.unitsPerOne * Nat.pow 10 top
  let below : GridPoint := ⟨top, places, n / d⟩
  let above : GridPoint := ⟨top, places, n / d + 1⟩
  let order := if 2 * (n % d) ≤ d then [below, above] else [above, below]
  order.find? fun p ↦ p.toBinary64 == a

/-- The number with as few digits as will do. No number of the format needs a power of ten below
`10 ^ (-341)`. -/
def shortest (a : Binary64) : String :=
  if a.units = 0 then "0"
  else
    let top := (Nat.toDigits 10 (a.units / Binary64.unitsPerOne)).length
    let point := (List.range (top + 342)).findSome? (nextOnGrid? a top)
    (point.map GridPoint.text).getD (fixed 342 a)

end GraphSearch.Decimal
