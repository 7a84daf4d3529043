import GraphSearch.Numeric.Binary64

/-!
# Places in the plane and their distances

A place has two coordinates of 32 bits. It may be packed into one number, its *cell*: the tens are
the first coordinate and the unit is the second, both with the sign of the cell.

Distances are computed in the arithmetic of the words. Between places that are unpacked from cells
nothing overflows, since their first coordinates stay below a tenth of the range.

A distance in a straight line is the length of a vector, and how well that is rounded differs from
system to system. So the function that computes lengths is a parameter here. Unless another one is
given, it rounds to the nearest number of the format.
-/

namespace GraphSearch.Route

open Numeric (Binary64)

/-- A place in the plane. -/
structure Coordinate where
  /-- The first coordinate. -/
  x : Int32
  /-- The second coordinate. -/
  y : Int32
deriving DecidableEq, Repr

namespace Coordinate

/-- The place that is packed into a cell. -/
def ofCell (cell : Int32) : Coordinate := ⟨cell / 10, cell % 10⟩

/-- The distance of two coordinates. -/
def gap (a b : Int32) : UInt32 := (a.toInt - b.toInt).natAbs.toUInt32

/-- The distance in steps along the axes. -/
def manhattan (a b : Coordinate) : UInt32 := gap a.x b.x + gap a.y b.y

/-- The distance in a straight line, as `hypot` computes the length of a vector. -/
def euclidean (a b : Coordinate) (hypot : Int32 → Int32 → Binary64 := Binary64.hypot) : Binary64 :=
  hypot (a.x - b.x) (a.y - b.y)

/-- The place as it is written in texts. -/
def text (a : Coordinate) : String := s!"({a.x}, {a.y})"

end Coordinate

end GraphSearch.Route
