import GraphSearch.Colouring.Backtracking
import GraphSearch.Colouring.Solution

/-!
# Colouring a graph with a palette

A run starts from the blank assignment and the store in which every variable has the whole palette.
It gives a solution or shows that there is none, and in either case what the search did.
-/

namespace GraphSearch.Colouring

/-- What came of a search. -/
structure Run where
  /-- The solution, if there is one. -/
  solution : Option Solution
  /-- What the search did. -/
  statistics : Search.Statistics
  /-- What there is to be said of it, in order. -/
  events : List Event
deriving DecidableEq, Repr

/-- What is to be said before a search: that it has nothing to do, or nothing to do it with. -/
def preliminaries (g : Graph) (palette : Nat) : List Event :=
  if g.size = 0 then [.noVariables] else if palette = 0 then [.noColours] else []

/-- Searches for a colouring with selectors of any kind. -/
def solveWith {σ : Type} (g : Graph) (palette : Nat) (strategy : Strategy σ) (memory : σ)
    (narrow : Bool) (guard : Search.Guard := .consistent g) : Except Fault Run := do
  let start : Search.State σ := { assignment := .blank g.size, memory }
  let (found, s) ← Search.run ⟨g, strategy, narrow⟩ (.full g.size palette) start guard
  let c := s.statistics
  let events := preliminaries g palette ++ s.events.toList
  if found then
    let solution ← Solution.ofAssignment g s.assignment
    return ⟨some solution, c, events ++ [.found c.nodes c.backtracks]⟩
  else
    return ⟨none, c, events ++ [.exhausted c.nodes c.backtracks]⟩

/-- Searches for a colouring as the options say. -/
def solve (g : Graph) (palette : Nat) (o : Options)
    (guard : Search.Guard := .consistent g) : Except Fault Run := do
  let r ← solveWith g palette o.strategy {} o.narrow guard
  return { r with events := .searching o.variableSelection o.valueSelection :: r.events }

end GraphSearch.Colouring
