/-!
# Ranges of characters

A class of characters is given as a list of ranges of code points, both ends included.
-/

namespace GraphSearch.Text

/-- All characters from one to another. -/
structure CharRange where
  /-- The first character. -/
  first : Nat
  /-- The last character. -/
  last : Nat

/-- Whether the range has the character. -/
def CharRange.contains (r : CharRange) (c : Char) : Bool := r.first ≤ c.toNat && c.toNat ≤ r.last

/-- Whether one of the ranges has the character. -/
def isIn (ranges : List CharRange) (c : Char) : Bool := ranges.any (·.contains c)

end GraphSearch.Text
