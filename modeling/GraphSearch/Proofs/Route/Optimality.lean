import GraphSearch.Proofs.Route.Ranks
import GraphSearch.Proofs.Route.Reachability
import Mathlib.Order.Bounds.Defs

/-!
# Shortest paths

A search whose estimates are whole numbers and exceed no distance returns the weight of the lightest
walk (`shortestPath_isLeast`). The estimates need not be consistent with each other, so a vertex may
be expanded at a cost that is lowered later.

Along each walk to the goal some vertex waits on the frontier that has been reached at no more than
the weight of the walk up to there (`Sound.exists_waiting`). Its rank is at most the weight of the
whole walk, since the estimate does not exceed what remains. So is the rank of the first candidate,
and with it the cost of the goal when the goal is taken.
-/

namespace GraphSearch.Route

variable {calls : List Addition} {u v goal : Vertex} {j k : Nat}

/-- No estimate exceeds the weight of a walk to the goal. -/
def Admissible (calls : List Addition) (h : Heuristic) (goal : Vertex) : Prop :=
  ∀ v k, Walk calls v goal k → stepsTo (.declared calls) h goal v ≤ k

/-- A function that falls along an edge by its weight at most bounds the weight of walks. -/
theorem Walk.le_add {d : Vertex → Nat} (hd : ∀ u x w, Joined calls u x w → d u ≤ w.toNat + d x)
    (h : Walk calls u v k) : d u ≤ k + d v := by
  induction h with
  | refl v => exact (Nat.zero_add _).ge
  | @head u x v w k edge _ ih =>
    have := hd u x w edge
    omega

namespace Exploration

variable {p : Problem} {s : State}

/-- **Along each walk to the goal some vertex waits**, with no more than the weight up to there. -/
theorem Sound.exists_waiting (hp : p.network = .declared calls) (h : Sound calls p s)
    (hwalk : Walk calls u v k) (hv : v = p.goal) (hu : s.arrivals.Reaches u j) :
    ∃ x i m, s.arrivals.Reaches x i ∧ ⟨x, p.priority x i⟩ ∈ s.frontier ∧ Walk calls x v m ∧
      i + m ≤ j + k := by
  rcases h.reaches_or_waits hp hwalk hu with ⟨i, hi, hreach⟩ | hwaits
  · rcases h.covers.waiting v i hreach with hbusy | hwaits | ⟨hgoal, -⟩
    · cases hbusy
    · exact ⟨v, i, 0, hreach, hwaits, .refl v, hi⟩
    · exact absurd hv hgoal
  · exact hwaits

/-- The first candidate, be it the goal or not, costs at most the weight of any walk to the goal. -/
theorem Exact.costOf_le (hexact : Exact calls p) (hadm : Admissible calls p.heuristic p.goal)
    (h : Sound calls p s) {c : Candidate} {rest : Frontier} (first : s.frontier = c :: rest)
    (hwalk : Walk calls p.start p.goal k) : s.costOf c.vertex ≤ k := by
  obtain ⟨x, i, m, hx, hwaits, hrest, hle⟩ :=
    h.exists_waiting hexact.network hwalk rfl h.rooted.reaches_start
  by_cases hstart : c.vertex = p.start
  · rw [hstart, State.costOf_eq h.rooted.reaches_start]
    exact Nat.zero_le k
  · have hfirst := hexact.add_stepsTo_first_le h first hstart (h.reaches_first first) hx hwaits
    have hsteps := hadm x m hrest
    omega

/-- **The cost of a search is the weight of the lightest walk to the goal**, if the goal is
connected to the start. The estimate is zero, or it is the number of steps along the axes and
exceeds no distance to the goal; and the weight of all edges together with the largest estimate
stays below `2 ^ 53`. -/
theorem shortestPath_isLeast (calls : List Addition) (start goal : Vertex) (h : Heuristic)
    (hh : h = .zero ∨ h = .manhattan ∧ Admissible calls h goal)
    (hsmall : ∀ v, totalWeight calls + stepsTo (.declared calls) h goal v < 2 ^ 53)
    (hconnected : Connected calls start goal) :
    ∃ c, (shortestPath (.declared calls) start goal h).outcome.cost = some c ∧
      IsLeast {k | Walk calls start goal k} c := by
  have hadm : Admissible calls h goal := by
    rcases hh with rfl | ⟨-, hadm⟩
    · exact fun v k _ ↦ Nat.zero_le k
    · exact hadm
  have hexact : Exact calls (.declared calls start goal h) :=
    .of_zero_or_manhattan (hh.imp_right And.left) hsmall
  obtain ⟨s, -, hsound, hends⟩ := exists_sound_end hexact.network
  rcases hsound.outcome_of_ends rfl hends with ⟨-, hnone, -⟩ | hfound
  · have hpath : (shortestPath (.declared calls) start goal h).outcome.found = true :=
      (found_iff_connected ..).2 hconnected
    rw [Outcome.found, hnone] at hpath
    cases hpath
  · obtain ⟨c, rest, path, first, hc, hcost, -, -⟩ := hfound
    refine ⟨_, hcost, ?_, fun k hwalk ↦ ?_⟩
    · have hreach := hsound.reaches_first first
      rw [hc] at hreach
      obtain ⟨_, hpath, -⟩ := hsound.rooted.path _ _ hreach
      exact hpath.walk
    · rw [← hc]
      exact hexact.costOf_le hadm hsound first hwalk

/-- A network in which the cheap way to `3` leads over `2`, whose estimate is so high that `3` is
first expanded at the cost of the edge from `1`. -/
def detour : List Addition :=
  [.vertex 2 ⟨11, 0⟩, .vertex 4 ⟨0, 0⟩, .edge 1 2 1, .edge 1 3 3, .edge 2 3 1, .edge 3 4 10]

theorem stepsTo_detour (v : Vertex) :
    stepsTo (.declared detour) .manhattan 4 v = if v = 2 then 11 else 0 := by
  rw [stepsTo_declared]
  by_cases h2 : v = 2
  · subst h2
    decide
  · by_cases h4 : v = 4
    · subst h4
      decide
    · have hnone : detour.reverse.findSome? (Addition.placeOf? v) = none := by
        simp [detour, Addition.placeOf?, Ne.symm h2, Ne.symm h4]
      rw [hnone, if_neg h2]
      rfl

/-- The distances to `4` fall along each edge by its weight at most, and the estimates are below. -/
theorem admissible_detour : Admissible detour .manhattan 4 := by
  intro v k hwalk
  have hfall : ∀ u x w, Joined detour u x w →
      (if u = 4 then 0 else if u = 3 then 10 else if u = 2 then 11 else 12) ≤
        w.toNat + (if x = 4 then 0 else if x = 3 then 10 else if x = 2 then 11 else 12) := by
    rintro u x w ⟨c, hc, hjoins⟩
    simp only [detour, List.mem_cons, List.not_mem_nil, or_false] at hc
    rcases hc with rfl | rfl | rfl | rfl | rfl | rfl <;>
      rcases hjoins with h | h <;> cases h <;> decide
  have hle := hwalk.le_add hfall
  rw [stepsTo_detour]
  split
  · rename_i h2
    subst h2
    exact hle
  · exact Nat.zero_le k

/-- In that network the search goes back to `3` at a lower cost and finds the lightest walk. -/
theorem shortestPath_isLeast_detour :
    ∃ c, (shortestPath (.declared detour) 1 4 .manhattan).outcome.cost = some c ∧
      IsLeast {k | Walk detour 1 4 k} c := by
  refine shortestPath_isLeast detour 1 4 .manhattan (Or.inr ⟨rfl, admissible_detour⟩) ?_ ?_
  · intro v
    rw [stepsTo_detour]
    have htotal : totalWeight detour = 15 := by decide
    split <;> omega
  · refine ⟨_, .head (x := 3) (w := 3) ?_ (.head (w := 10) ?_ (.refl 4))⟩
    · exact ⟨.edge 1 3 3, by decide, Or.inl rfl⟩
    · exact ⟨.edge 3 4 10, by decide, Or.inl rfl⟩

end Exploration

end GraphSearch.Route
