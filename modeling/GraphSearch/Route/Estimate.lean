import GraphSearch.Choice
import GraphSearch.Route.Coordinate

/-!
# Estimates of the distance that remains

A search for a shortest path may be guided by an estimate of how far a vertex is from the goal. The
estimate is a distance in the plane, or always zero; where a place is not known it is zero as well.
-/

namespace GraphSearch.Route

open Numeric (Binary64)

/-- An estimate of the distance between two places, either of which may be unknown. -/
abbrev Estimate := Option Coordinate → Option Coordinate → Binary64

/-- How the distance that remains is estimated. -/
inductive Heuristic where
  /-- Not at all. -/
  | zero
  /-- By the distance in a straight line. -/
  | euclidean
  /-- By the distance in steps along the axes. -/
  | manhattan
deriving DecidableEq, Repr

instance : Choice Heuristic where
  all := [.zero, .euclidean, .manhattan]
  name
    | .zero => "zero"
    | .euclidean => "euclidean"
    | .manhattan => "manhattan"
  title
    | .zero => "UCS (h=0)"
    | .euclidean => "A* Euclidean"
    | .manhattan => "A* Manhattan"

namespace Heuristic

/-- The estimate of the distance between two places, where `hypot` computes lengths. -/
def estimate (h : Heuristic) (source goal : Option Coordinate)
    (hypot : Int32 → Int32 → Binary64 := Binary64.hypot) : Binary64 :=
  match source, goal with
  | some a, some b =>
    match h with
    | zero => .ofNat 0
    | euclidean => a.euclidean b hypot
    | manhattan => .ofNat (a.manhattan b).toNat
  | _, _ => .ofNat 0

end Heuristic

end GraphSearch.Route
