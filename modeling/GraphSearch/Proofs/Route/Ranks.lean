import GraphSearch.Proofs.Numeric.WholeNumbers
import GraphSearch.Proofs.Route.Rounds

/-!
# Priorities that are exact

Unless distances are estimated in a straight line, an estimate is a whole number (`stepsTo`). If the
weight of all edges and the largest estimate together stay below `2 ^ 53`, every cost that a search
comes across and every priority is a whole number that the format holds (`Exact`). Then a priority
is the cost and the estimate added up without rounding, which is the `rank` of the vertex at that
cost, and the frontier is in the order of the ranks. The start alone has rank zero in any case,
since it is put on the frontier without an estimate.
-/

namespace GraphSearch.Route

open Numeric (Binary64)

/-- The estimate of the distance between two places as a whole number: the number of steps along the
axes, if it is estimated in these and both places are known, and zero otherwise. -/
def Heuristic.steps (h : Heuristic) (source goal : Option Coordinate) : Nat :=
  match h, source, goal with
  | manhattan, some a, some b => (a.manhattan b).toNat
  | _, _, _ => 0

/-- The estimate of the distance from `v` to the goal as a whole number. -/
def stepsTo (n : Network) (h : Heuristic) (goal v : Vertex) : Nat :=
  h.steps (n.coordinateOf v) (n.coordinateOf goal)

theorem Heuristic.estimate_eq_ofNat {h : Heuristic} (hh : h ≠ .euclidean)
    (source goal : Option Coordinate) : h.estimate source goal = .ofNat (h.steps source goal) := by
  cases h with
  | euclidean => exact absurd rfl hh
  | zero => cases source <;> cases goal <;> rfl
  | manhattan => cases source <;> cases goal <;> rfl

theorem Heuristic.steps_lt (h : Heuristic) (source goal : Option Coordinate) :
    h.steps source goal < 2 ^ 32 := by
  unfold steps
  split
  · exact UInt32.toNat_lt _
  · exact Nat.two_pow_pos 32

/-- An estimate depends on the last places that were declared. -/
theorem stepsTo_declared (calls : List Addition) (h : Heuristic) (goal v : Vertex) :
    stepsTo (.declared calls) h goal v =
      h.steps (calls.reverse.findSome? (Addition.placeOf? v))
        (calls.reverse.findSome? (Addition.placeOf? goal)) := by
  rw [stepsTo, Network.coordinateOf_declared, Network.coordinateOf_declared]

/-- Estimates have 32 bits, so it is enough that the edges weigh little. -/
theorem totalWeight_add_stepsTo_lt {calls : List Addition} {h : Heuristic} {goal : Vertex}
    (htotal : totalWeight calls + 2 ^ 32 ≤ 2 ^ 53) (v : Vertex) :
    totalWeight calls + stepsTo (.declared calls) h goal v < 2 ^ 53 :=
  (Nat.add_lt_add_left (h.steps_lt _ _) _).trans_le htotal

namespace Exploration

/-- The cost of a vertex and the estimate of what remains, except that the start comes first. -/
def Problem.rank (p : Problem) (v : Vertex) (k : Nat) : Nat :=
  if v = p.start then 0 else k + stepsTo p.network p.heuristic p.goal v

/-- No priority that occurs in the search is rounded. -/
structure Exact (calls : List Addition) (p : Problem) : Prop where
  /-- The network is that of the calls. -/
  network : p.network = .declared calls
  /-- Estimates are whole numbers. -/
  whole : ∀ source goal, p.estimate source goal = .ofNat (p.heuristic.steps source goal)
  /-- No cost and estimate add up to more than the format holds. -/
  small : ∀ v, totalWeight calls + stepsTo p.network p.heuristic p.goal v < 2 ^ 53

variable {calls : List Addition} {p : Problem} {u v : Vertex} {j k : Nat}

/-- Nothing is rounded unless distances are estimated in a straight line, if the weights and the
estimates are small enough. -/
theorem Exact.of_zero_or_manhattan {start goal : Vertex} {h : Heuristic}
    (hh : h = .zero ∨ h = .manhattan)
    (hsmall : ∀ v, totalWeight calls + stepsTo (.declared calls) h goal v < 2 ^ 53) :
    Exact calls (.declared calls start goal h) := by
  refine ⟨rfl, Heuristic.estimate_eq_ofNat ?_, hsmall⟩
  rcases hh with rfl | rfl <;> simp

theorem Problem.rank_of_ne_start (h : v ≠ p.start) (k : Nat) :
    p.rank v k = k + stepsTo p.network p.heuristic p.goal v := if_neg h

theorem Problem.rank_le (p : Problem) (v : Vertex) (k : Nat) :
    p.rank v k ≤ k + stepsTo p.network p.heuristic p.goal v := by
  unfold rank
  split <;> omega

namespace Exact

theorem rank_lt (h : Exact calls p) (v : Vertex) (hk : k ≤ totalWeight calls) :
    p.rank v k < 2 ^ 53 := by
  have := h.small v
  have := p.rank_le v k
  omega

/-- **A priority is the rank**, not rounded. -/
theorem priority_eq (h : Exact calls p) (v : Vertex) (hk : k ≤ totalWeight calls) :
    p.priority v k = .ofNat (p.rank v k) := by
  have hsmall := h.small v
  unfold Problem.priority Problem.rank Problem.remaining
  split
  · rfl
  · rw [h.whole]
    exact Binary64.ofNat_add_ofNat (by unfold stepsTo at hsmall; omega)

theorem priority_le_iff (h : Exact calls p) (hj : j ≤ totalWeight calls)
    (hk : k ≤ totalWeight calls) :
    p.priority u j ≤ p.priority v k ↔ p.rank u j ≤ p.rank v k := by
  rw [h.priority_eq u hj, h.priority_eq v hk]
  exact Binary64.ofNat_le_ofNat (h.rank_lt u hj) (h.rank_lt v hk)

theorem priority_inj (h : Exact calls p) (hv : v ≠ p.start) (hj : j ≤ totalWeight calls)
    (hk : k ≤ totalWeight calls) : p.priority v j = p.priority v k ↔ j = k := by
  rw [h.priority_eq v hj, h.priority_eq v hk,
    Binary64.ofNat_inj (h.rank_lt v hj) (h.rank_lt v hk), Problem.rank_of_ne_start hv,
    Problem.rank_of_ne_start hv]
  omega

variable {s : State} {c : Candidate} {rest : Frontier}

/-- The first candidate of a frontier has the lowest rank, even if a cost has improved since. -/
theorem rank_first_le (h : Exact calls p) (hs : Sound calls p s) (first : s.frontier = c :: rest)
    (hc : s.arrivals.Reaches c.vertex j) (hv : s.arrivals.Reaches v k)
    (hwaits : ⟨v, p.priority v k⟩ ∈ s.frontier) : p.rank c.vertex j ≤ p.rank v k := by
  obtain ⟨i, hi, hpriority, j', hj', hc'⟩ := hs.covers.entry c (first ▸ List.mem_cons_self)
  obtain rfl := hc.unique hc'
  have hfirst : c.priority ≤ p.priority v k := by
    have hascending := hs.covers.ascending
    rw [first] at hascending hwaits
    exact hascending.first_le hwaits
  rw [hpriority, h.priority_le_iff hi (hs.rooted.le_totalWeight hv)] at hfirst
  have hmono : p.rank c.vertex j ≤ p.rank c.vertex i := by
    unfold Problem.rank
    split <;> omega
  omega

/-- The first candidate, unless it is the start, adds up with its estimate to no more than a vertex
that waits does. -/
theorem add_stepsTo_first_le (h : Exact calls p) (hs : Sound calls p s)
    (first : s.frontier = c :: rest) (hstart : c.vertex ≠ p.start)
    (hc : s.arrivals.Reaches c.vertex j) (hv : s.arrivals.Reaches v k)
    (hwaits : ⟨v, p.priority v k⟩ ∈ s.frontier) :
    j + stepsTo (.declared calls) p.heuristic p.goal c.vertex ≤
      k + stepsTo (.declared calls) p.heuristic p.goal v := by
  rw [← h.network, ← Problem.rank_of_ne_start hstart]
  exact (h.rank_first_le hs first hc hv hwaits).trans (p.rank_le v k)

end Exact

end Exploration

end GraphSearch.Route
