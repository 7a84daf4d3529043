import GraphSearch.Colouring.Graph
import GraphSearch.Colouring.Options
import GraphSearch.Log

/-!
# What happens while a graph is coloured

Building, propagating and searching report what they do as events. An event holds what happened and
nothing of how it is said; its level and its text are decided here.
-/

namespace GraphSearch.Colouring

/-- Something worth a record. -/
inductive Event where
  /-- A graph was built. -/
  | built (vertices edges : Nat)
  /-- An instance was read. -/
  | parsed (vertices edges palette : Nat)
  /-- A search with two standing heuristics begins. -/
  | searching (variableSelection : VariableSelection) (valueSelection : ValueSelection)
  /-- There is nothing to colour. -/
  | noVariables
  /-- There is something to colour and no colour for it. -/
  | noColours
  /-- The variable `x`, which has no colour yet, has no colour left. -/
  | emptyDomain (x : Variable)
  /-- The last colour of `target` went because of the domain of `support`. -/
  | wipedOut (target support : Variable)
  /-- The colour `c` is tried for `x`, which is then the variable number `depth` with a colour. -/
  | trying (depth : Nat) (x : Variable) (c : Colour)
  /-- The search ended with a colouring. -/
  | found (nodes backtracks : Nat)
  /-- The search ended without a colouring. -/
  | exhausted (nodes backtracks : Nat)
deriving DecidableEq, Repr

namespace Event

/-- How much an event matters. -/
def level : Event → Log.Level
  | noVariables | noColours => .warn
  | wipedOut .. | trying .. => .trace
  | _ => .debug

/-- What is said of an event. -/
def text : Event → String
  | built n m => s!"Built constraint graph with {n} variables and {m} edges"
  | parsed n m k => s!"Parsed instance with {n} variables, {m} edges and {k} colours"
  | searching x c =>
    s!"Searching with variable selection '{Choice.title x}' and value selection '{Choice.title c}'"
  | noVariables => "The constraint graph contains no variables; the empty colouring is returned"
  | noColours => "The palette contains no colours; no variable can be coloured"
  | emptyDomain x => s!"Unassigned variable {Variable.text x} has an empty domain"
  | wipedOut x y =>
    s!"Domain of {Variable.text x} wiped out while revising ({Variable.text x}, {Variable.text y})"
  | trying d x c => s!"Depth {d}: trying {Variable.text x} = {c}"
  | found n b => s!"Found a colouring after {n} nodes and {b} backtracks"
  | exhausted n b => s!"Search space exhausted after {n} nodes and {b} backtracks"

/-- The record of an event. -/
def record (e : Event) : Log.Record := ⟨e.level, e.text⟩

end Event

end GraphSearch.Colouring
