import GraphSearch.Colouring.Graph

/-!
# Partial colourings and the order of their decisions

A search colours one variable after another and takes decisions back in the opposite order. Its
assignment holds the colour of each variable, if it has one, and beside it the variables in the
order in which they were decided. The two are kept apart: the colours answer what a variable holds,
the order answers which decision is to be undone.

An assignment may be sized for more or fewer variables than a graph has. It counts as complete when
as many decisions stand as it has places.
-/

namespace GraphSearch.Colouring

/-- A partial colouring that remembers the order of its decisions. -/
structure Assignment where
  /-- The colour of each variable that has one. -/
  colours : Table (Option Colour)
  /-- The variables that were decided, the most recent first. -/
  decided : List Variable := []
deriving DecidableEq, Repr

namespace Assignment

/-- The assignment of `n` variables that decides none. -/
def blank (n : Nat) : Assignment := { colours := .filled n none }

/-- The colour of a variable, if it has one. -/
def colourOf (a : Assignment) (x : Variable) : Except Fault (Option Colour) := a.colours.get x

/-- Whether a variable has a colour. -/
def isAssigned (a : Assignment) (x : Variable) : Except Fault Bool := Option.isSome <$> a.colourOf x

/-- The number of decisions that stand. -/
def count (a : Assignment) : Nat := a.decided.length

/-- Whether as many decisions stand as there are places. -/
def isComplete (a : Assignment) : Bool := a.count == a.colours.size

/-- The number of places without a colour. -/
def free (a : Assignment) : Nat := a.colours.toList.countP Option.isNone

/-- Decides that `x` has the colour `c`. It must not have one yet. -/
def assign (a : Assignment) (x : Variable) (c : Colour) : Except Fault Assignment := do
  if ← a.isAssigned x then throw (.assignedTwice x)
  let colours ← a.colours.set x (some c)
  return ⟨colours, x :: a.decided⟩

/-- Takes the most recent decision back, and says what it was. -/
def undo (a : Assignment) : Except Fault (Option (Variable × Colour) × Assignment) :=
  match a.decided with
  | [] => .ok (none, a)
  | x :: earlier => do
    let held ← a.colourOf x
    let colours ← a.colours.set x none
    return (held.map fun c ↦ (x, c), ⟨colours, earlier⟩)

/-- Whether no neighbour of `x` has the colour `c`. The neighbours are looked at in ascending order,
up to the first that has. -/
def isConsistent (a : Assignment) (g : Graph) (x : Variable) (c : Colour) : Except Fault Bool := do
  let row ← g.neighboursOf x
  row.allM fun y ↦ (· != some c) <$> a.colourOf y

/-- The decisions that stand, the oldest first. -/
def trail (a : Assignment) : List (Variable × Colour) :=
  a.decided.reverse.filterMap fun x ↦ (a.colours.entries[x]?.join).map fun c ↦ (x, c)

end Assignment

end GraphSearch.Colouring
