import GraphSearch.Proofs.Route.Reachability
import GraphSearch.Proofs.Route.Waiting
import Mathlib.Data.List.Chain

/-!
# The cost of a path

The cost that a search returns was added up while it went along edges, and the path is read off the
arrivals at the end, when vertices on it may have been reached at lower costs since. Where estimates
are whole numbers the two agree all the same, admissible or not (`shortestPath_cost_eq_pathWeight`).

At the end nothing on the way back from the goal waits, so that all of it is settled. Between a
settled vertex and one that was reached by way of it, the costs differ by the weight of the lightest
edge: by no less, since some edge was counted, and by no more, since no edge would lead there at a
lower cost (`Arrivals.Rooted.lightest?_eq`). So the costs along the way add up
(`Trail.pathWeight?_eq`).
-/

namespace GraphSearch.Route

variable {calls : List Addition} {r : Arrivals} {start u v : Vertex} {j k : Nat}

open Exploration
open Arrivals (Rooted)

/-- From a settled vertex the next one costs more by the weight of the lightest edge. -/
theorem Arrivals.Rooted.lightest?_eq {p : Problem} (hp : p.network = .declared calls)
    (h : Rooted calls start r) (hvia : r.Via v u) (hu : r.Reaches u j) (hv : r.Reaches v k)
    (hsettled : Settled p r u j) : ∃ w, lightest? calls u v = some w ∧ j + w = k := by
  obtain ⟨j', w, k', hu', hedge, hv', hle⟩ := h.edge v u hvia
  obtain rfl := hu.unique hu'
  obtain rfl := hv.unique hv'
  have hcheapest : ∀ w', Joined calls u v w' → k ≤ j + w'.toNat := by
    intro w' hedge'
    have he : ⟨v, w'⟩ ∈ p.network.edgesOf u := hp ▸ Network.mem_edgesOf_declared.2 hedge'
    obtain ⟨i, hi, hreach⟩ := hsettled _ he
    obtain rfl := hv.unique hreach
    exact hi
  have hw := hcheapest w hedge
  refine ⟨w.toNat, lightest?_eq_some_iff.2 ⟨⟨w, hedge, rfl⟩, fun w' hedge' ↦ ?_⟩, by omega⟩
  have := hcheapest w' hedge'
  omega

namespace Trail

variable {path : List Vertex}

/-- **The way to a vertex weighs what the vertex costs**, if all before it is settled. -/
theorem pathWeight?_eq {p : Problem} (hp : p.network = .declared calls) (h : Rooted calls start r)
    (htrail : Trail start r v path) (hv : r.Reaches v k)
    (hsettled : ∀ u j, r.ProperlyBefore v u → r.Reaches u j → Settled p r u j) :
    pathWeight? calls path = some k := by
  induction htrail generalizing k with
  | start =>
    obtain rfl := hv.unique h.reaches_start
    rfl
  | @next u v path other via before ih =>
    obtain ⟨j, -, -, hu, -⟩ := h.edge v u via
    have hpath := ih hu fun x i hbefore ↦
      hsettled x i (Arrivals.properlyBefore_iff.2 ⟨u, via, hbefore.before⟩)
    have husettled := hsettled u j (Arrivals.properlyBefore_iff.2 ⟨u, via, .refl⟩) hu
    obtain ⟨w, hlightest, rfl⟩ := h.lightest?_eq hp via hu hv husettled
    exact pathWeight?_concat hpath before.getLast?_eq hlightest

/-- Consecutive vertices of a way are joined. -/
theorem isChain_joined (h : Rooted calls start r) (htrail : Trail start r v path) :
    path.IsChain fun u v ↦ ∃ w, Joined calls u v w := by
  induction htrail with
  | start => exact .singleton start
  | @next u v path other via before ih =>
    obtain ⟨_, w, _, -, hedge, -, -⟩ := h.edge v u via
    refine List.isChain_append.2 ⟨ih, .singleton v, ?_⟩
    rw [before.getLast?_eq]
    rintro x hx y hy
    obtain rfl : u = x := Option.some.inj hx
    obtain rfl : v = y := Option.some.inj hy
    exact ⟨w, hedge⟩

end Trail

namespace Exploration

/-- **The cost of a search is the weight of its path**, with the estimate zero or the number of
steps along the axes, be it admissible or not: a path that is returned begins with the start, ends
with the goal and repeats no vertex, consecutive vertices are joined by an edge, and the lightest
edges between them add up to the cost. The weight of all edges together with the largest estimate
stays below `2 ^ 53`. -/
theorem shortestPath_cost_eq_pathWeight (calls : List Addition) (start goal : Vertex)
    (h : Heuristic) (hh : h = .zero ∨ h = .manhattan)
    (hsmall : ∀ v, totalWeight calls + stepsTo (.declared calls) h goal v < 2 ^ 53)
    {path : List Vertex}
    (hpath : (shortestPath (.declared calls) start goal h).outcome.path = some path) :
    path.head? = some start ∧ path.getLast? = some goal ∧ path.Nodup ∧
      (path.IsChain fun u v ↦ ∃ w, Joined calls u v w) ∧
      ∃ c, (shortestPath (.declared calls) start goal h).outcome.cost = some c ∧
        pathWeight? calls path = some c := by
  have hexact : Exact calls (.declared calls start goal h) := .of_zero_or_manhattan hh hsmall
  obtain ⟨s, hrounds, hsound, hends⟩ := exists_sound_end hexact.network
  have hinOrder := InOrder.of_rounds hexact hrounds
  rcases hsound.outcome_of_ends rfl hends with ⟨-, hnone, -⟩ | hfound
  · rw [hnone] at hpath
    cases hpath
  · obtain ⟨c, rest, path', first, hc, hcost, hpath', htrail⟩ := hfound
    obtain rfl : path' = path := Option.some.inj (hpath'.symm.trans hpath)
    refine ⟨htrail.head?_eq, htrail.getLast?_eq, htrail.nodup, htrail.isChain_joined hsound.rooted,
      _, hcost, ?_⟩
    have hreach := hsound.reaches_first first
    -- The goal waits, since it is not settled before it is taken.
    have hwaits : Waits (.declared calls start goal h) s.arrivals s.frontier c.vertex
        (s.costOf c.vertex) := by
      rcases hsound.covers.waiting _ _ hreach with hbusy | hmem | ⟨hne, -⟩
      · cases hbusy
      · exact ⟨hreach, hmem⟩
      · exact absurd hc hne
    subst hc
    refine htrail.pathWeight?_eq (p := (.declared calls start c.vertex h)) rfl hsound.rooted hreach
      fun u j hbefore hu ↦ ?_
    rcases hsound.covers.waiting u j hu with hbusy | hmem | ⟨-, hsettled⟩
    · cases hbusy
    · exact absurd ⟨hu, hmem⟩ (hinOrder.not_waits_of_first hexact hsound first hwaits hbefore)
    · exact hsettled

/-- A network in which the estimate for `2` exceeds its distance to `4`, so that the lightest walk,
which leads over it, is missed. -/
def overestimated : List Addition :=
  [.vertex 2 ⟨100, 0⟩, .vertex 4 ⟨0, 0⟩, .edge 1 2 1, .edge 1 3 3, .edge 2 3 1, .edge 3 4 10]

/-- In that network a path is found, and the cost of the search is its weight. -/
theorem shortestPath_cost_eq_pathWeight_overestimated :
    ∃ path, (shortestPath (.declared overestimated) 1 4 .manhattan).outcome.path = some path ∧
      path.head? = some 1 ∧ path.getLast? = some 4 ∧ path.Nodup ∧
      (path.IsChain fun u v ↦ ∃ w, Joined overestimated u v w) ∧
      ∃ c, (shortestPath (.declared overestimated) 1 4 .manhattan).outcome.cost = some c ∧
        pathWeight? overestimated path = some c := by
  have hconnected : Connected overestimated 1 4 := by
    refine ⟨_, .head (x := 3) (w := 3) ?_ (.head (w := 10) ?_ (.refl 4))⟩
    · exact ⟨.edge 1 3 3, by decide, Or.inl rfl⟩
    · exact ⟨.edge 3 4 10, by decide, Or.inl rfl⟩
  have hfound : (shortestPath (.declared overestimated) 1 4 .manhattan).outcome.found = true :=
    (found_iff_connected ..).2 hconnected
  obtain ⟨path, hpath⟩ := Option.isSome_iff_exists.1 hfound
  refine ⟨path, hpath, shortestPath_cost_eq_pathWeight overestimated 1 4 .manhattan (Or.inr rfl)
    (fun v ↦ ?_) hpath⟩
  have htotal : totalWeight overestimated = 15 := by decide
  have hsteps : stepsTo (.declared overestimated) .manhattan 4 v < 2 ^ 32 :=
    Heuristic.steps_lt _ _ _
  omega

end Exploration

end GraphSearch.Route
