import GraphSearch.Colouring.ArcConsistency
import GraphSearch.Colouring.Selection

/-!
# Depth-first search for a colouring

A node of the search is a partial assignment with a store. If the assignment is complete the search
has succeeded. Otherwise a variable is selected and its colours are tried in order: a colour that no
neighbour has is assigned, the store is propagated, and unless that empties a domain the search goes
on from there. Where that fails, the decision is taken back and the next colour is tried. Each
branch prunes a store of its own, so the colours of one variable all start from the same domains.

## Depth

Every decision fills a free place of the assignment, and a decision on a variable that has a colour
is a fault. So a search cannot be deeper than there were free places, and `backtrack` recurses on
that number. Below the last place nothing is left to decide: `expand` then never gets to use the
continuation that it is given.

## Which colours are tried

A `Guard` says of a variable and a colour whether the colour may be tried, given what is assigned,
and colours that it does not let pass are skipped. The guard of a search is `Guard.consistent`,
unless another one is given.

## What is counted

`Statistics.tried` is a node: one colour assigned, one store copied. `Statistics.undone` is a
decision taken back. The events of a search are kept in their order.
-/

namespace GraphSearch.Colouring

namespace Search

/-- What searches have done so far. -/
structure Statistics where
  /-- The number of decisions tried. -/
  nodes : Nat := 0
  /-- The number of those that were taken back. -/
  backtracks : Nat := 0
  /-- The number of stores copied for a branch. -/
  storeCopies : Nat := 0
  /-- The largest number of decisions that stood at once, right after one was tried. -/
  peakDepth : Nat := 0
  /-- What the propagations did. -/
  propagation : Propagation.Statistics := {}
deriving DecidableEq, Repr

namespace Statistics

/-- Counts a decision that is the `depth`-th of those that stand. -/
def tried (c : Statistics) (depth : Nat) : Statistics :=
  { c with
    nodes := c.nodes + 1
    storeCopies := c.storeCopies + 1
    peakDepth := max c.peakDepth depth }

/-- Counts a decision that was taken back. -/
def undone (c : Statistics) : Statistics := { c with backtracks := c.backtracks + 1 }

end Statistics

/-- What a search is about: it stays the same from node to node. -/
structure Problem (σ : Type) where
  /-- The graph to be coloured. -/
  graph : Graph
  /-- How to choose. -/
  strategy : Strategy σ
  /-- Whether a colour that is tried becomes the only one of its variable. -/
  narrow : Bool

/-- What a search has come to: it is handed from node to node. -/
structure State (σ : Type) where
  /-- The colours given so far. -/
  assignment : Assignment
  /-- What the selectors remember. -/
  memory : σ
  /-- What has been done so far. -/
  statistics : Statistics := {}
  /-- What there is to be said of it, in order. -/
  events : Array Event := #[]

/-- Says of a variable and a colour whether the colour may be tried, given what is assigned. -/
abbrev Guard := Assignment → Variable → Colour → Except Fault Bool

/-- The colour may be tried unless a neighbour has it. -/
def Guard.consistent (g : Graph) : Guard := fun a x c ↦ a.isConsistent g x c

variable {σ : Type}

/-- The search below a node: whether it succeeds, and the state that it leaves. -/
abbrev Continuation (σ : Type) := Store → State σ → Except Fault (Bool × State σ)

/-- Assigns `c` to `x` and propagates. Gives the store of the branch, unless a domain was emptied.
-/
def attempt (p : Problem σ) (store : Store) (x : Variable) (c : Colour) (s : State σ) :
    Except Fault (Option Store × State σ) := do
  let assignment ← s.assignment.assign x c
  let statistics := s.statistics.tried assignment.count
  let branch ← if p.narrow then Prod.snd <$> store.narrow x c else pure store
  let outcome ← propagate p.graph branch statistics.propagation
  let events := (s.events.push (.trying assignment.count x c)).appendList outcome.events
  let s := { s with
    assignment, events
    statistics := { statistics with propagation := outcome.statistics } }
  return (if outcome.wipedOut.isSome then none else some outcome.store, s)

/-- Takes back the decision `x = c`, which must be the most recent one. -/
def retract (x : Variable) (c : Colour) (s : State σ) : Except Fault (State σ) := do
  let (undone, assignment) ← s.assignment.undo
  if undone ≠ some (x, c) then throw (.undoMismatch x c)
  return { s with assignment, statistics := s.statistics.undone }

/-- Tries the colours for `x` that the guard lets pass in turn, until one of them leads to success.
-/
def tryColours (p : Problem σ) (guard : Guard) (descend : Continuation σ) (store : Store)
    (x : Variable) : List Colour → State σ → Except Fault (Bool × State σ)
  | [], s => .ok (false, s)
  | c :: cs, s => do
    if !(← guard s.assignment x c) then
      tryColours p guard descend store x cs s
    else
      let (branch, s) ← attempt p store x c s
      let (found, s) ← match branch with
        | some branch => descend branch s
        | none => pure (false, s)
      if found then return (true, s)
      tryColours p guard descend store x cs (← retract x c s)

/-- Searches below a node whose children are searched by `descend`. -/
def expand (p : Problem σ) (guard : Guard) (descend : Continuation σ) : Continuation σ :=
  fun store s ↦ do
    if s.assignment.isComplete then return (true, s)
    let ctx : Context := ⟨p.graph, store, s.assignment⟩
    let selected ← p.strategy.selectVariable ctx s.memory
    let s := { s with memory := selected.memory, events := s.events.appendList selected.events }
    match selected.choice with
    | none => return (false, s)
    | some x =>
      let (colours, memory) ← p.strategy.orderColours ctx x s.memory
      tryColours p guard descend store x colours { s with memory }

/-- Searches below a node that is at most `depth` decisions from a complete assignment. -/
def backtrack (p : Problem σ) (guard : Guard) : Nat → Continuation σ
  | 0 => expand p guard fun _ s ↦ .ok (false, s)
  | depth + 1 => expand p guard (backtrack p guard depth)

/-- Searches for an extension of the assignment that is complete, starting from the given domains.
Whether there is one is answered beside the state that the search leaves. -/
def run (p : Problem σ) (store : Store) (s : State σ) (guard : Guard := .consistent p.graph) :
    Except Fault (Bool × State σ) := do
  if store.size ≠ p.graph.size then throw .storeMismatch
  backtrack p guard s.assignment.free store s

end Search

end GraphSearch.Colouring
