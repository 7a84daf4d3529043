import GraphSearch.Log
import GraphSearch.Route.Estimate
import GraphSearch.Route.Network

/-!
# What happens while paths are searched

An event holds what happened; its level and its text are decided here.
-/

namespace GraphSearch.Route

/-- Something worth a record. -/
inductive Event where
  /-- An instance was read. -/
  | parsed (vertices : Nat) (start goal : Vertex)
  /-- The goal was reached. -/
  | reached (heuristic : Heuristic) (goal : Vertex) (cost expanded : Nat)
  /-- There is no path. -/
  | unreachable (heuristic : Heuristic) (start goal : Vertex)
deriving DecidableEq, Repr

namespace Event

/-- What is said of an event. -/
def text : Event → String
  | parsed n s g => s!"Parsed pathfinding instance with {n} vertices, from {s} to {g}"
  | reached h g c n => s!"{Choice.title h}: reached {g} with cost {c} after {n} expansions"
  | unreachable h s g => s!"{Choice.title h}: {g} is unreachable from {s}"

/-- The record of an event. -/
def record (e : Event) : Log.Record := ⟨.debug, e.text⟩

end Event

end GraphSearch.Route
