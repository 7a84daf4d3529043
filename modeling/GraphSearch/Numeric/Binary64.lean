import GraphSearch.Numeric.Rounding

/-!
# Nonnegative numbers in binary double precision

Every finite nonnegative number of the format is a whole multiple of the smallest positive one,
which is `2 ^ (-1074)`. So such a number is held here as a natural number of these *units*, and
order and exact sums are those of natural numbers. What makes a number one of the format is that it
has at most 53 binary digits from its first to its last nonzero one; `nearest` rounds to such a
number, to the even one if two are equally near. Numbers too large for the format do not occur.

The stored word falls out of the units. Let `e` be the number of digits that the units have beyond
53. The significand `units / 2 ^ e` has its leading digit in the place of the lowest digit of the
exponent field, and adding `e` there gives the word for small numbers, where `e = 0`, as well.
-/

namespace GraphSearch.Numeric

/-- A nonnegative number in binary double precision. -/
structure Binary64 where
  /-- How many times the smallest positive number it is. -/
  units : Nat
deriving DecidableEq, Repr

namespace Binary64

/-- The number of units in one. -/
def unitsPerOne : Nat := Nat.pow 2 1074

/-- The number of binary digits of `n` beyond the 53 that the format keeps. -/
def excess (n : Nat) : Nat := n.log2 - 52

/-- The number of the format that is nearest to `n / d` units. -/
def nearest (n d : Nat) : Binary64 :=
  let e := excess (n / d)
  ⟨roundQuotient n (d * Nat.pow 2 e) * Nat.pow 2 e⟩

/-- The number of the format that is nearest to `n / d`. -/
def ofRatio (n d : Nat) : Binary64 := nearest (n * unitsPerOne) d

/-- The number of the format that is nearest to `n`. -/
def ofNat (n : Nat) : Binary64 := ofRatio n 1

instance : Add Binary64 where
  add a b := nearest (a.units + b.units) 1

instance : LE Binary64 where
  le a b := a.units ≤ b.units

instance (a b : Binary64) : Decidable (a ≤ b) := inferInstanceAs (Decidable (a.units ≤ b.units))

/-- The number of the format that is nearest to the square root of `n`. A root with 55 binary digits
and a mark for what lies beyond them decides it. -/
def sqrt (n : Nat) : Binary64 :=
  let scaled := n * Nat.pow 4 54
  let r := floorSqrt scaled
  let beyond := if r * r = scaled then 0 else 1
  ofRatio (2 * r + beyond) (Nat.pow 2 55)

/-- The number of the format that is nearest to the length of the vector with these coordinates. -/
def hypot (dx dy : Int32) : Binary64 :=
  sqrt (dx.toInt.natAbs * dx.toInt.natAbs + dy.toInt.natAbs * dy.toInt.natAbs)

/-- The word that stores the number. -/
def toBits (a : Binary64) : Nat :=
  let e := excess a.units
  e * Nat.pow 2 52 + a.units / Nat.pow 2 e

/-- The word that stores the number, as 16 hexadecimal digits. -/
def hex (a : Binary64) : String :=
  let digits := Nat.toDigits 16 a.toBits
  String.ofList (List.replicate (16 - digits.length) '0' ++ digits)

end Binary64

end GraphSearch.Numeric
