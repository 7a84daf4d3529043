import GraphSearch.Proofs.Route.Rounds

/-!
# When a search finds a path

A search ends whatever the estimates are (`Terminates`): its rounds do, and so does the way back to
the start if the record is followed as it stands. It finds a path exactly if there is a walk to the
goal, so the estimates have no part in that (`shortestPath_terminates_and_finds`).

A vertex is reached along a walk only. The other direction is about a search that ends without a
path. Then nothing waits on the frontier, so that all that has been reached is settled, and is not
the goal; and what has been reached is closed under going along an edge (`Sound.reaches_of_walk`).
-/

namespace GraphSearch.Route

open Relation (ReflTransGen)

namespace Exploration

variable {calls : List Addition} {p : Problem} {s : State} {u v : Vertex} {j k : Nat}

/-- The search comes to an end: there is no endless sequence of rounds, finitely many rounds lead to
the end that gives the cost, and the path that is returned is the way back to the start. -/
structure Terminates (p : Problem) (o : Outcome) : Prop where
  /-- There is no endless sequence of rounds. -/
  rounds : WellFounded fun t s : State ↦ Step p s t
  /-- The rounds of the search lead to an end, and the way back from there does. -/
  ends : ∃ s t, ReflTransGen (Step p) p.initial s ∧ Ends p s o.cost t ∧
    ∀ path, o.path = some path → Trail p.start t.arrivals p.goal path

/-- A vertex that has been reached is connected to the start. -/
theorem Sound.connected (h : Sound calls p s) (hv : s.arrivals.Reaches v k) :
    Connected calls p.start v := by
  obtain ⟨_, hpath, -⟩ := h.rooted.path v k hv
  exact ⟨k, hpath.walk⟩

/-- **Along each walk from a vertex that has been reached** the last one is reached as well, at no
more than the cost and the weight of the walk, or some vertex waits, with no more than the weight up
to there. -/
theorem Sound.reaches_or_waits (hp : p.network = .declared calls) (h : Sound calls p s)
    (hwalk : Walk calls u v k) (hu : s.arrivals.Reaches u j) :
    (∃ i ≤ j + k, s.arrivals.Reaches v i) ∨
      ∃ x i m, s.arrivals.Reaches x i ∧ ⟨x, p.priority x i⟩ ∈ s.frontier ∧ Walk calls x v m ∧
        i + m ≤ j + k := by
  induction hwalk generalizing j with
  | refl v => exact Or.inl ⟨j, Nat.le_refl j, hu⟩
  | @head u x v w k edge rest ih =>
    rcases h.covers.waiting u j hu with hbusy | hwaits | ⟨-, hsettled⟩
    · cases hbusy
    · exact Or.inr ⟨u, j, w.toNat + k, hu, hwaits, .head edge rest, Nat.le_refl _⟩
    · have he : ⟨x, w⟩ ∈ p.network.edgesOf u := hp ▸ Network.mem_edgesOf_declared.2 edge
      obtain ⟨i, hi, hx⟩ := hsettled _ he
      have hle : i + k ≤ j + (w.toNat + k) := by
        simp only at hi
        omega
      rcases ih hx with ⟨i', hi', hv⟩ | ⟨y, i', m, hy, hwaits, hrest, hle'⟩
      · exact Or.inl ⟨i', hi'.trans hle, hv⟩
      · exact Or.inr ⟨y, i', m, hy, hwaits, hrest, hle'.trans hle⟩

/-- When nothing waits any more, what has been reached is closed under going along edges. -/
theorem Sound.reaches_of_walk (hp : p.network = .declared calls) (h : Sound calls p s)
    (hempty : s.frontier = []) (hwalk : Walk calls u v k) (hu : s.arrivals.Reaches u j) :
    ∃ i, s.arrivals.Reaches v i := by
  rcases h.reaches_or_waits hp hwalk hu with ⟨i, -, hv⟩ | ⟨_, _, _, -, hwaits, -⟩
  · exact ⟨i, hv⟩
  · rw [hempty] at hwaits
    cases hwaits

/-- When nothing waits any more, the goal has not been reached. -/
theorem Sound.not_reaches_goal (h : Sound calls p s) (hempty : s.frontier = []) :
    ¬s.arrivals.Reaches p.goal k := by
  intro hgoal
  rcases h.covers.waiting _ k hgoal with hbusy | hmem | ⟨hne, -⟩
  · cases hbusy
  · rw [hempty] at hmem
    cases hmem
  · exact hne rfl

/-- **A search finds a path exactly if the goal is connected to the start.** -/
theorem found_iff_connected (calls : List Addition) (start goal : Vertex) (h : Heuristic)
    (estimate : Estimate) :
    (shortestPath (.declared calls) start goal h estimate).outcome.found = true ↔
      Connected calls start goal := by
  obtain ⟨s, -, hsound, hends⟩ :=
    exists_sound_end (p := .declared calls start goal h estimate) rfl
  rcases hsound.outcome_of_ends rfl hends with ⟨-, hpath, hempty⟩ | hfound
  · -- Nothing is left to be done, so a walk to the goal would have reached it.
    have hnone : ¬Connected calls start goal := by
      rintro ⟨k, hwalk⟩
      obtain ⟨i, hgoal⟩ := hsound.reaches_of_walk rfl hempty hwalk hsound.rooted.reaches_start
      exact hsound.not_reaches_goal hempty hgoal
    simp [Outcome.found, hpath, hnone]
  · obtain ⟨c, rest, path, first, rfl, -, hpath, -⟩ := hfound
    have hconnected := hsound.connected (hsound.reaches_first first)
    simpa [Outcome.found, hpath] using hconnected

theorem terminates (calls : List Addition) (start goal : Vertex) (h : Heuristic)
    (estimate : Estimate) :
    Terminates (.declared calls start goal h estimate)
      (shortestPath (.declared calls) start goal h estimate).outcome := by
  obtain ⟨s, hrounds, hsound, hends⟩ :=
    exists_sound_end (p := .declared calls start goal h estimate) rfl
  refine ⟨wellFounded_step _, s, _, hrounds, hends, fun path hpath ↦ ?_⟩
  rcases hsound.outcome_of_ends rfl hends with ⟨-, hnone, -⟩ | hfound
  · rw [hnone] at hpath
    cases hpath
  · obtain ⟨c, rest, path', first, hc, -, hpath', htrail⟩ := hfound
    obtain rfl : path' = path := Option.some.inj (hpath'.symm.trans hpath)
    rwa [hends.arrivals_eq]

/-- **Every search terminates, and finds a path exactly if there is one**: whatever the search is
named for and whatever the estimates are, it comes to an end, and it returns a path if and only if
the goal is the start or is connected to it. So all searches agree on that, those with the estimates
of the three heuristics among them, however lengths are rounded. -/
theorem shortestPath_terminates_and_finds (calls : List Addition) (start goal : Vertex) :
    (∀ (h : Heuristic) (estimate : Estimate),
      Terminates (.declared calls start goal h estimate)
          (shortestPath (.declared calls) start goal h estimate).outcome ∧
        ((shortestPath (.declared calls) start goal h estimate).outcome.found = true ↔
          start = goal ∨ Connected calls start goal)) ∧
      (∀ (h h' : Heuristic) (estimate estimate' : Estimate),
        (shortestPath (.declared calls) start goal h estimate).outcome.found =
          (shortestPath (.declared calls) start goal h' estimate').outcome.found) := by
  refine ⟨fun h estimate ↦ ⟨terminates calls start goal h estimate, ?_⟩,
    fun h h' estimate estimate' ↦ ?_⟩
  · rw [found_iff_connected]
    constructor
    · exact Or.inr
    · rintro (rfl | hconnected)
      · exact ⟨0, .refl start⟩
      · exact hconnected
  · rw [Bool.eq_iff_iff, found_iff_connected, found_iff_connected]

end Exploration

end GraphSearch.Route
