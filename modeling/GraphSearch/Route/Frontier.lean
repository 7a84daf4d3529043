import GraphSearch.Route.Estimate
import GraphSearch.Route.Network

/-!
# The frontier of a search

The frontier holds the vertices that are still to be expanded, each with the priority it had when it
was put there. It is kept in the order in which they will be taken: by ascending priority, and where
priorities are equal the one that was put there earlier comes first. A vertex may be on it more than
once.

A search has use for the candidates only. What stands on its frontier may be anything that has a
candidate (`Entry`), so that more can be kept of a candidate where it is of interest.
-/

namespace GraphSearch.Route

open Numeric (Binary64)

/-- A vertex to be expanded. -/
structure Candidate where
  /-- The vertex. -/
  vertex : Vertex
  /-- Its cost when it was put on the frontier and the estimate of what remains, added up. -/
  priority : Binary64
deriving DecidableEq, Repr

/-- What may stand on a frontier. -/
class Entry (α : Type) where
  /-- The candidate of an entry. -/
  candidate : α → Candidate
  /-- The entry for a candidate whose vertex has been reached at the given cost. -/
  enter : Candidate → Nat → α
  /-- It is an entry for this candidate. -/
  candidate_enter : ∀ c k, candidate (enter c k) = c

/-- Of a candidate nothing more needs to be kept. -/
instance : Entry Candidate where
  candidate c := c
  enter c _ := c
  candidate_enter _ _ := rfl

@[simp] theorem Entry.candidate_self (c : Candidate) : Entry.candidate c = c := rfl

@[simp] theorem Entry.enter_self (c : Candidate) (k : Nat) : Entry.enter c k = c := rfl

/-- The vertices to be expanded, the next one first. -/
abbrev Frontier (α : Type := Candidate) := List α

variable {α : Type} [Entry α]

/-- Puts an entry behind all those of at most the same priority. -/
def Frontier.insert (c : α) : Frontier α → Frontier α
  | [] => [c]
  | d :: rest =>
    if (Entry.candidate d).priority ≤ (Entry.candidate c).priority then d :: Frontier.insert c rest
    else c :: d :: rest

@[simp] theorem Frontier.length_insert (c : α) (f : Frontier α) :
    (Frontier.insert c f).length = f.length + 1 := by
  induction f with
  | nil => rfl
  | cons d rest ih =>
    unfold Frontier.insert
    split
    · simp [ih]
    · rfl

theorem Frontier.mem_insert {c d : α} {f : Frontier α} :
    d ∈ Frontier.insert c f ↔ d = c ∨ d ∈ f := by
  induction f with
  | nil => simp [Frontier.insert]
  | cons e rest ih =>
    unfold Frontier.insert
    split
    · simp only [List.mem_cons, ih]
      grind
    · simp

end GraphSearch.Route
