import GraphSearch.Colouring.Event
import GraphSearch.Colouring.Store

/-!
# Arc consistency

Each edge of a graph is two arcs, one for each end. The arc from `x` to `y` stands for what the
domain of `y` means for that of `x`: if `y` has a single colour left, `x` cannot have it. To
*revise* the arc is to take that colour away from `x`.

`propagate` revises arcs until nothing changes. It works off a list that starts with all arcs. When
`x` has lost a colour because of `y`, the arcs from the other neighbours of `x` to `x` are put at
the end of the list, since what `x` means for them may have changed; `y` need not be asked again.
The first domain that becomes empty ends it.

It ends in any case. A revision that changes anything takes colours away, so that the total number
of colours falls, and one that changes nothing shortens the list: the pair of the two numbers falls
in lexicographic order (`Store.totalSize_lt_of_revise`).
-/

namespace GraphSearch.Colouring

/-- One direction of an edge. -/
structure Arc where
  /-- The variable that may lose colours. -/
  target : Variable
  /-- The variable because of which it does. -/
  support : Variable
deriving DecidableEq, Repr

/-- The arc as it is written in texts. -/
def Arc.text (a : Arc) : String := s!"({Variable.text a.target}, {Variable.text a.support})"

/-- All arcs of a graph, by ascending target and then by ascending support. -/
def Graph.arcs (g : Graph) : List Arc :=
  g.neighbours.pairs.flatMap fun (x, row) ↦ row.map fun y ↦ ⟨x, y⟩

/-! ### Revising one arc -/

namespace Store

/-- Takes from the target of `a` the colours that its support rules out, and says how many. -/
def revise (s : Store) (a : Arc) : Except Fault (Nat × Store) := do
  let support ← s.domainOf a.support
  let target ← s.domainOf a.target
  let gone := target.unsupported support
  if gone.isEmpty then return (0, s)
  let domains ← s.domains.set a.target (target.eraseAll gone)
  return (gone.length, ⟨domains⟩)

theorem totalSize_lt_of_revise {s t : Store} {a : Arc} {n : Nat}
    (h : s.revise a = .ok (n + 1, t)) : t.totalSize < s.totalSize := by
  unfold revise domainOf at h
  cases hs : s.domains.get a.support with
  | error e => simp [hs, bind, Except.bind] at h
  | ok support =>
  cases ht : s.domains.get a.target with
  | error e => simp [hs, ht, bind, Except.bind] at h
  | ok target =>
  by_cases hg : target.unsupported support = []
  · simp [hs, ht, hg, bind, Except.bind, pure, Except.pure] at h
  · cases hd : s.domains.set a.target (target.eraseAll (target.unsupported support)) with
    | error e => simp [hs, ht, hg, hd, bind, Except.bind] at h
    | ok domains =>
      have hst : t = ⟨domains⟩ := by
        simp [hs, ht, hg, hd, bind, Except.bind, pure, Except.pure] at h
        exact h.2.symm
      obtain ⟨-, hl⟩ := Table.set_eq_ok_iff.1 hd
      rw [hst, totalSize, totalSize, hl]
      exact sumOf_set_lt (Table.get_eq_ok_iff.1 ht) (Domain.size_eraseAll_unsupported_lt hg)

end Store

/-! ### Revising until nothing changes -/

namespace Propagation

/-- What propagations have done so far. -/
structure Statistics where
  /-- The number of propagations. -/
  calls : Nat := 0
  /-- The number of those that emptied a domain. -/
  wipeouts : Nat := 0
  /-- The number of arcs taken from the list. -/
  arcsProcessed : Nat := 0
  /-- The number of those whose revision took a colour away. -/
  revisions : Nat := 0
  /-- The number of colours taken away. -/
  valuesPruned : Nat := 0
deriving DecidableEq, Repr

/-- Counts an arc whose revision took `n` colours away. -/
def Statistics.revised (c : Statistics) (n : Nat) : Statistics :=
  { c with
    arcsProcessed := c.arcsProcessed + 1
    revisions := if n = 0 then c.revisions else c.revisions + 1
    valuesPruned := c.valuesPruned + n }

/-- How a propagation ended. -/
structure Outcome where
  /-- The store that is left. If a domain was emptied, it is the store at that moment. -/
  store : Store
  /-- The arc whose revision emptied the domain of its target, if one did. -/
  wipedOut : Option Arc
  /-- The counts, those of earlier propagations included. -/
  statistics : Statistics
deriving DecidableEq, Repr

/-- What there is to be said of a propagation. -/
def Outcome.events (o : Outcome) : List Event :=
  o.wipedOut.toList.map fun a ↦ .wipedOut a.target a.support

/-- Works the list of arcs off. -/
def drain (g : Graph) (worklist : List Arc) (s : Store) (c : Statistics) : Except Fault Outcome :=
  match worklist with
  | [] => .ok ⟨s, none, c⟩
  | a :: rest =>
    match _ : s.revise a with
    | .error e => .error e
    | .ok (0, _) => drain g rest s (c.revised 0)
    | .ok (n + 1, t) => do
      let c := c.revised (n + 1)
      if ← t.isEmptyAt a.target then
        return ⟨t, some a, { c with wipeouts := c.wipeouts + 1 }⟩
      let row ← g.neighboursOf a.target
      drain g (rest ++ (row.filter (· != a.support)).map fun z ↦ ⟨z, a.target⟩) t c
termination_by (s.totalSize, worklist.length)
decreasing_by
  · exact Prod.Lex.right _ (Nat.lt_succ_self _)
  · exact Prod.Lex.left _ _ (Store.totalSize_lt_of_revise ‹_›)

end Propagation

/-- Revises all arcs of the graph until nothing changes or a domain is empty. The counts start from
those given. -/
def propagate (g : Graph) (s : Store) (c : Propagation.Statistics) :
    Except Fault Propagation.Outcome :=
  Propagation.drain g g.arcs s { c with calls := c.calls + 1 }

end GraphSearch.Colouring
