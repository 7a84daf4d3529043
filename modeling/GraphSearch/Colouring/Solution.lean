import GraphSearch.Colouring.Assignment

/-!
# Colourings of whole graphs

A solution holds the labels of its graph beside the colours, so that it can be reported, and checked
against any graph, without the graph for which it was found. Against another graph the checks may
have to read colours that are not there, which is a fault.
-/

namespace GraphSearch.Colouring

/-- A colour for each label. -/
structure Solution where
  /-- The labels, in ascending order. -/
  labels : Table Label
  /-- The colour of each. -/
  colours : Table Colour
deriving DecidableEq, Repr

namespace Solution

/-- The label and colour of a variable that has a colour. -/
def entry (g : Graph) (a : Assignment) (x : Variable) : Except Fault (Option (Label × Colour)) := do
  match ← a.colourOf x with
  | none => return none
  | some c => return some (← g.labelOf x, c)

/-- The solution that a complete assignment for the graph amounts to. -/
def ofAssignment (g : Graph) (a : Assignment) : Except Fault Solution := do
  unless a.isComplete do throw .incompleteSolution
  let entries ← g.allVariables.filterMapM (entry g a)
  return ⟨.ofList (entries.map Prod.fst), .ofList (entries.map Prod.snd)⟩

/-- The number of vertices that have a colour. -/
def size (s : Solution) : Nat := s.colours.size

/-- The colour of a variable. -/
def colourOf (s : Solution) (x : Variable) : Except Fault Colour := s.colours.get x

/-- Each label with its colour, in ascending order of the labels. -/
def pairs (s : Solution) : List (Label × Colour) := s.labels.toList.zip s.colours.toList

/-- The colour of a label, if it is one of those that have a colour. -/
def colourOfLabel? (s : Solution) (u : Label) : Option Colour :=
  (s.pairs.find? fun p ↦ p.1 == u).map Prod.snd

/-- The number of different colours. -/
def coloursUsed (s : Solution) : Nat := s.colours.toList.eraseDups.length

/-- Whether the labels are those of the graph. -/
def isCompleteFor (s : Solution) (g : Graph) : Except Fault Bool :=
  if s.size ≠ g.size then .ok false
  else g.allVariables.allM fun x ↦ do
    let u ← s.labels.get x
    return u == (← g.labelOf x)

/-- The labels of an edge whose ends have the same colour. -/
def violation? (s : Solution) (g : Graph) (e : Variable × Variable) :
    Except Fault (Option (Label × Label)) := do
  let c ← s.colourOf e.1
  if c = (← s.colourOf e.2) then return some (← g.labelOf e.1, ← g.labelOf e.2)
  else return none

/-- The edges of the graph whose ends have the same colour, by their labels. -/
def violated (s : Solution) (g : Graph) : Except Fault (List (Label × Label)) :=
  g.edges.filterMapM (s.violation? g)

end Solution

end GraphSearch.Colouring
