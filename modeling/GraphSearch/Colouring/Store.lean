import GraphSearch.Colouring.Domain
import GraphSearch.Sum

/-!
# The domains of all variables

A store is a table of domains. It is a value: a branch of a search that prunes its store leaves the
store of its parent as it was.
-/

namespace GraphSearch.Colouring

/-- The domains of all variables. -/
structure Store where
  /-- The domain of each variable. -/
  domains : Table Domain
deriving DecidableEq, Repr

namespace Store

/-- The store in which each of `n` variables has the whole palette of size `k`. -/
def full (n k : Nat) : Store := ⟨.filled n (.full k)⟩

/-- The number of variables. -/
def size (s : Store) : Nat := s.domains.size

/-- The domain of a variable. -/
def domainOf (s : Store) (x : Variable) : Except Fault Domain := s.domains.get x

/-- The number of colours left for a variable. -/
def sizeOf (s : Store) (x : Variable) : Except Fault Nat := Domain.size <$> s.domainOf x

/-- Whether `c` is left for `x`. -/
def contains (s : Store) (x : Variable) (c : Colour) : Except Fault Bool :=
  (Domain.contains · c) <$> s.domainOf x

/-- Whether nothing is left for `x`. -/
def isEmptyAt (s : Store) (x : Variable) : Except Fault Bool := Domain.isEmpty <$> s.domainOf x

/-- Takes `c` away from `x`, and says whether it was there. -/
def remove (s : Store) (x : Variable) (c : Colour) : Except Fault (Bool × Store) := do
  let d ← s.domainOf x
  let domains ← s.domains.set x (d.erase c)
  return (d.contains c, ⟨domains⟩)

/-- Takes everything but `c` away from `x`, and says whether that was anything. -/
def narrow (s : Store) (x : Variable) (c : Colour) : Except Fault (Bool × Store) := do
  let d ← s.domainOf x
  let domains ← s.domains.set x (d.retain c)
  return ((d.retain c).size != d.size, ⟨domains⟩)

/-- The number of colours left for all variables together. -/
def totalSize (s : Store) : Nat := sumOf Domain.size s.domains.toList

end Store

end GraphSearch.Colouring
