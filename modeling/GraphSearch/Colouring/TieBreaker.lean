import GraphSearch.Colouring.Graph

/-!
# Breaking ties by arrival

Variables are considered one after another, each with a score, and one of them is selected: the
first of those with the lowest score. A newcomer takes the lead only if its score is strictly below
that of the leader, which settles ties in favour of the earlier one.

The order of the scores is an argument. It need not be total: with floating-point scores nothing is
below a score that is not a number, nor is that below anything.
-/

namespace GraphSearch.Colouring

universe u

/-- The variable that leads, with its score. -/
structure TieBreaker (α : Type u) where
  /-- The leader, if any variable has been considered. -/
  leader : Option (Variable × α) := none
deriving Repr

namespace TieBreaker

variable {α : Type u}

/-- Considers `x`, whose score is `score`. -/
def consider (below : α → α → Bool) (t : TieBreaker α) (x : Variable) (score : α) : TieBreaker α :=
  match t.leader with
  | none => ⟨some (x, score)⟩
  | some (_, lowest) => if below score lowest then ⟨some (x, score)⟩ else t

/-- The variable that leads. The next selection starts afresh. -/
def select (t : TieBreaker α) : Option Variable × TieBreaker α := (t.leader.map Prod.fst, {})

end TieBreaker

end GraphSearch.Colouring
