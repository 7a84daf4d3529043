import GraphSearch.Choice

/-!
# How a graph is to be searched for a colouring

A search asks two questions again and again: which variable to colour next, and in which order to
try its colours. Each question has two standing answers.
-/

namespace GraphSearch.Colouring

/-- Which variable is coloured next. -/
inductive VariableSelection where
  /-- One with the fewest colours left, and of those the lowest. -/
  | fewestRemaining
  /-- The lowest that has no colour yet. -/
  | inputOrder
deriving DecidableEq, Repr

instance : Choice VariableSelection where
  all := [.fewestRemaining, .inputOrder]
  name
    | .fewestRemaining => "mrv"
    | .inputOrder => "input-order"
  title
    | .fewestRemaining => "mrv"
    | .inputOrder => "input-order"

/-- In which order the colours of a variable are tried. -/
inductive ValueSelection where
  /-- Those first that the fewest neighbours still have. -/
  | leastConstraining
  /-- As they stand in the domain. -/
  | inDomainOrder
deriving DecidableEq, Repr

instance : Choice ValueSelection where
  all := [.leastConstraining, .inDomainOrder]
  name
    | .leastConstraining => "lcv"
    | .inDomainOrder => "in-domain-order"
  title
    | .leastConstraining => "lcv"
    | .inDomainOrder => "in-domain-order"

/-- The settings of a search. -/
structure Options where
  /-- Which variable is coloured next. -/
  variableSelection : VariableSelection := .fewestRemaining
  /-- In which order its colours are tried. -/
  valueSelection : ValueSelection := .leastConstraining
  /-- Whether a colour that is tried becomes the only one of its variable before the effect on the
  other domains is worked out. Without it only domains that were single before have an effect. -/
  narrow : Bool := false
deriving DecidableEq, Repr

end GraphSearch.Colouring
