/-!
# Faults

A computation over numbered tables can go wrong in a way that no answer can express: it reads past
the end of a table, or it finds that a rule it relies on has been broken. Such a computation ends
at once, and what it leaves is a `Fault`. Everything that may end so returns `Except Fault`, and
the text of a fault is decided in one place, `Fault.message`.

Which of two faults is reported is settled by the order of evaluation alone, so the definitions
that follow bind their reads in the order in which the first failing one is to count.
-/

namespace GraphSearch

/-- Why a computation had to be given up. -/
inductive Fault where
  /-- A table of `length` entries was read or written at `index`, which lies past its end. -/
  | indexOutOfRange (length index : Nat)
  /-- Variable `v` was assigned while it still held a colour. -/
  | assignedTwice (v : Nat)
  /-- The domains given to a search are not those of its graph: there are more or fewer of them. -/
  | storeMismatch
  /-- Undoing the decision `v = c` gave back another one. -/
  | undoMismatch (v c : Nat)
  /-- A solution was to be read off an assignment that leaves variables without a colour. -/
  | incompleteSolution
  /-- A solution that is about to be reported does not fit its graph. -/
  | rejectedSolution
deriving DecidableEq, Repr

/-- The text that reports a fault. -/
def Fault.message : Fault → String
  | indexOutOfRange length index =>
    s!"index out of bounds: the len is {length} but the index is {index}"
  | assignedTwice v => s!"Variable x{v} was assigned twice without being undone"
  | storeMismatch => "The domain store does not match the constraint graph"
  | undoMismatch v c => s!"Backtracking should undo the most recent decision x{v} = {c}"
  | incompleteSolution => "A solution can only be extracted from a complete assignment"
  | rejectedSolution => "The solution does not colour its graph"

end GraphSearch
