import GraphSearch.Colouring.Assignment
import GraphSearch.Colouring.Event
import GraphSearch.Colouring.Store
import GraphSearch.Colouring.TieBreaker

/-!
# What to colour next, and with what

A search asks a *variable selector* for the variable to colour next and a *value selector* for the
colours to try, in order. Both see the state of the search as a `Context`, and both may remember
things from one question to the next: they are given a memory and give one back.

A search trusts neither. A variable selector may give no variable although some have no colour, or
one that has a colour already; a value selector may leave colours out, repeat them or name some that
are not in the domain. What is asked of the selectors of this file is more, and is stated about
them.

Variables are gone through in ascending order, and each is asked for its colour before it is asked
for its domain; so of two reads past the end the one at the lower variable is reported.
-/

namespace GraphSearch.Colouring

/-- What a selector is shown. -/
structure Context where
  /-- The graph to be coloured. -/
  graph : Graph
  /-- The domains at this point of the search. -/
  store : Store
  /-- The colours given so far. -/
  assignment : Assignment

namespace Context

/-- Whether a variable has no colour yet. -/
def isUnassigned (ctx : Context) (x : Variable) : Except Fault Bool :=
  (!·) <$> ctx.assignment.isAssigned x

/-- The variables that have no colour yet, in ascending order. -/
def unassigned (ctx : Context) : Except Fault (List Variable) :=
  ctx.graph.allVariables.filterM ctx.isUnassigned

/-- The number of neighbours of `x` that have `c` in their domain. -/
def conflicts (ctx : Context) (x : Variable) (c : Colour) : Except Fault Nat := do
  let row ← ctx.graph.neighboursOf x
  row.foldlM (fun n y ↦ do return if ← ctx.store.contains y c then n + 1 else n) 0

end Context

/-- A choice of the next variable, with what there is to be said of it. -/
structure Selected (σ : Type) where
  /-- The variable, or none to give the search up at this point. -/
  choice : Option Variable
  /-- What was noticed on the way. -/
  events : List Event
  /-- What is remembered. -/
  memory : σ

/-- Chooses the variable to colour next. -/
abbrev VariableSelector (σ : Type) := Context → σ → Except Fault (Selected σ)

/-- Chooses the colours to try for a variable. -/
abbrev ValueSelector (σ : Type) := Context → Variable → σ → Except Fault (List Colour × σ)

/-! ### Selectors for the next variable -/

/-- What the standing heuristics remember: the tie-breaker of the fewest remaining colours. -/
abbrev Memory := TieBreaker Nat

namespace VariableSelector

variable {σ : Type}

/-- Looks at one variable on the way to the one with the fewest colours left. -/
def weigh (ctx : Context) (seen : List Event × Memory) (x : Variable) :
    Except Fault (List Event × Memory) := do
  if ← ctx.isUnassigned x then
    let n ← ctx.store.sizeOf x
    let events := if n = 0 then seen.1 ++ [.emptyDomain x] else seen.1
    return (events, seen.2.consider (fun m n ↦ decide (m < n)) x n)
  else return seen

/-- A variable with the fewest colours left, and of those the lowest. -/
def fewestRemaining : VariableSelector Memory := fun ctx memory ↦ do
  let (events, memory) ← ctx.graph.allVariables.foldlM (weigh ctx) ([], memory)
  let (choice, memory) := memory.select
  return ⟨choice, events, memory⟩

/-- The lowest variable that has no colour yet. -/
def inputOrder : VariableSelector σ := fun ctx memory ↦ do
  return ⟨← ctx.graph.allVariables.findM? ctx.isUnassigned, [], memory⟩

/-- The first of the given variables that has no colour yet. -/
def firstOf (xs : List Variable) : VariableSelector σ := fun ctx memory ↦ do
  return ⟨← xs.findM? ctx.isUnassigned, [], memory⟩

/-- The variable `x`, whether it has a colour or not. -/
def always (x : Variable) : VariableSelector σ := fun _ memory ↦ .ok ⟨some x, [], memory⟩

end VariableSelector

/-! ### Selectors for the order of the colours -/

namespace ValueSelector

variable {σ : Type}

/-- Those colours first that the fewest neighbours have in their domains. Colours with the same
number of such neighbours stay as they stand in the domain. -/
def leastConstraining : ValueSelector σ := fun ctx x memory ↦ do
  let d ← ctx.store.domainOf x
  let scored ← d.colours.mapM fun c ↦ (fun n ↦ (c, n)) <$> ctx.conflicts x c
  return ((scored.mergeSort fun p q ↦ decide (p.2 ≤ q.2)).map Prod.fst, memory)

/-- The colours as they stand in the domain. -/
def inDomainOrder : ValueSelector σ := fun ctx x memory ↦ do
  return ((← ctx.store.domainOf x).colours, memory)

/-- The colours as they stand in the domain, the last one first. -/
def reversed : ValueSelector σ := fun ctx x memory ↦ do
  return ((← ctx.store.domainOf x).colours.reverse, memory)

/-- The given colours, whatever the domain. -/
def always (cs : List Colour) : ValueSelector σ := fun _ _ memory ↦ .ok (cs, memory)

end ValueSelector

/-! ### The two together -/

/-- How a search chooses. -/
structure Strategy (σ : Type) where
  /-- Chooses the variable to colour next. -/
  selectVariable : VariableSelector σ
  /-- Chooses the colours to try for it. -/
  orderColours : ValueSelector σ

/-- The selector that a setting stands for. -/
def VariableSelection.selector : VariableSelection → VariableSelector Memory
  | fewestRemaining => VariableSelector.fewestRemaining
  | inputOrder => VariableSelector.inputOrder

/-- The selector that a setting stands for. -/
def ValueSelection.selector : ValueSelection → ValueSelector Memory
  | leastConstraining => ValueSelector.leastConstraining
  | inDomainOrder => ValueSelector.inDomainOrder

/-- The strategy that the options stand for. -/
def Options.strategy (o : Options) : Strategy Memory :=
  ⟨o.variableSelection.selector, o.valueSelection.selector⟩

end GraphSearch.Colouring
