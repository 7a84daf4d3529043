import GraphSearch.Decimal.Places
import GraphSearch.Elapsed
import GraphSearch.Route.Exploration

/-!
# The report of a search for a path

The lines in which the outcome of a search is shown, one fact to the line. Without a path the cost
reads `NO PATH` and the line of the path is left out. The time is shown in seconds with six decimal
places.
-/

namespace GraphSearch.Route

/-- The path as it is written in a report. -/
def pathText (path : List Vertex) : String :=
  "[" ++ ", ".intercalate (path.map toString) ++ "]"

/-- The lines of a report. -/
def report (h : Heuristic) (o : Outcome) (time : Elapsed) : List String :=
  let found := match o.path, o.cost with
    | some path, some cost => [s!"Optimal cost: {cost}", s!"Path: {pathText path}"]
    | _, _ => ["Optimal cost: NO PATH"]
  [s!"MODE: {Choice.title h}"] ++ found ++
    [s!"Expanded: {o.expanded}", s!"Pushes: {o.pushes}", s!"Max frontier: {o.widest}",
      s!"Runtime (s): {Decimal.fixed 6 time.seconds}"]

end GraphSearch.Route
