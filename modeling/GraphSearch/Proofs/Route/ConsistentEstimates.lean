import GraphSearch.Proofs.Route.Moments
import GraphSearch.Proofs.Route.Optimality
import GraphSearch.Proofs.Route.Waiting
import Mathlib.Algebra.Order.BigOperators.Group.Finset

/-!
# Searches with consistent estimates

Estimates are consistent if those of the two ends of an edge differ by its weight at most. A vertex
is then expanded at its distance from the start only (`Exact.isLeast_costOf`): along a lightest walk
to it either nothing waits any more, and it has been reached at the weight of the walk, or a vertex
waits that costs no more than the walk up to there, and which would be in front of it if the rest of
the walk weighed less than what it costs too much.

Since nothing improves on a distance, the record of a vertex stays as it is once the vertex has been
expanded (`getElem?_eq_of_ticks`). So a candidate that is taken either belongs to a vertex that is
settled, and expanding it changes nothing, or it is the one with which its vertex waits, and the
vertex is expanded for the first time. In both cases nothing comes to stand before it on the
frontier (`Exact.priority_le_expand`), which is why candidates are taken in ascending order and each
vertex puts others on the frontier once (`Orderly.step`).
-/

namespace GraphSearch.Route

variable {calls : List Addition} {u v : Vertex} {j k : Nat}

/-- The estimates of the two ends of an edge differ by its weight at most. Since an edge can be gone
along in either direction it is enough to bound one of them. -/
def Consistent (calls : List Addition) (h : Heuristic) (goal : Vertex) : Prop :=
  ∀ u v w, Joined calls u v w →
    stepsTo (.declared calls) h goal u ≤ w.toNat + stepsTo (.declared calls) h goal v

theorem Consistent.zero (calls : List Addition) (goal : Vertex) : Consistent calls .zero goal :=
  fun _ _ _ _ ↦ Nat.zero_le _

namespace Exploration

open Relation (ReflTransGen)

variable {p : Problem} {s t : State} {c : Candidate} {rest : Frontier} {m m' : Moment}

/-- **The first candidate costs what the lightest walk to its vertex weighs.** -/
theorem Exact.isLeast_costOf (hexact : Exact calls p)
    (hcons : Consistent calls p.heuristic p.goal) (h : Sound calls p s)
    (first : s.frontier = c :: rest) :
    IsLeast {k | Walk calls p.start c.vertex k} (s.costOf c.vertex) := by
  have hreach := h.reaches_first first
  obtain ⟨_, hpath, -⟩ := h.rooted.path _ _ hreach
  refine ⟨hpath.walk, fun k hwalk ↦ ?_⟩
  by_cases hstart : c.vertex = p.start
  · rw [hstart, State.costOf_eq h.rooted.reaches_start]
    exact Nat.zero_le k
  · rcases h.reaches_or_waits hexact.network hwalk h.rooted.reaches_start with
      ⟨i, hi, hreach'⟩ | ⟨x, i, m, hx, hwaits, hrest, hle⟩
    · obtain rfl := hreach.unique hreach'
      omega
    · have hfirst := hexact.add_stepsTo_first_le h first hstart hreach hx hwaits
      have hsteps := hrest.le_add hcons
      omega

/-! ### What has been expanded -/

/-- Going along an edge changes the record and the frontier at most, and counts that it does. -/
theorem relax_eq_or_counts (p : Problem) (v : Vertex) (g : Nat) (s : State) (e : Edge) :
    relax p v g s e = s ∨
      ∃ r f, relax p v g s e = { s with arrivals := r, frontier := f, pushes := s.pushes + 1 } := by
  by_cases h : s.arrivals.improves e.target (g + e.weight.toNat) = true
  · exact Or.inr ⟨_, _, if_pos h⟩
  · exact Or.inl (if_neg h)

theorem relax_expansions (p : Problem) (v : Vertex) (g : Nat) (s : State) (e : Edge) :
    (relax p v g s e).expansions = s.expansions := by
  rcases relax_eq_or_counts p v g s e with heq | ⟨r, f, heq⟩
  · rw [heq]
  · rw [heq]

theorem expand_expansions (p : Problem) (v : Vertex) (g : Nat) (s : State) :
    (expand p v g s).expansions = s.expansions :=
  List.foldlRecOn (motive := fun t : State ↦ t.expansions = s.expansions) _ _ rfl
    fun t ht e _ ↦ (relax_expansions p v g t e).trans ht

theorem mem_expansions_take {x : Expansion} :
    x ∈ (take c rest s).expansions ↔
      x ∈ s.expansions ∨ x = ⟨c.vertex, s.costOf c.vertex, c.priority⟩ :=
  Array.mem_push

/-- Each vertex has been expanded at its distance from the start, and that is its cost still. -/
def AtDistance (calls : List Addition) (p : Problem) (s : State) : Prop :=
  ∀ x ∈ s.expansions,
    s.arrivals.Reaches x.vertex x.cost ∧ IsLeast {k | Walk calls p.start x.vertex k} x.cost

theorem AtDistance.take (hexact : Exact calls p) (hcons : Consistent calls p.heuristic p.goal)
    (hs : Sound calls p s) (h : AtDistance calls p s) (first : s.frontier = c :: rest) :
    AtDistance calls p (take c rest s) := by
  intro x hx
  rcases mem_expansions_take.1 hx with hx | rfl
  · exact h x hx
  · exact ⟨hs.reaches_first first, hexact.isLeast_costOf hcons hs first⟩

/-- Nothing improves on a distance. -/
theorem Tick.getElem?_eq (hp : p.network = .declared calls) (h : m.Sound calls p)
    (htick : Tick p m m') (hv : m.state.arrivals.Reaches v k)
    (hleast : k ∈ lowerBounds {k | Walk calls p.start v k}) :
    m'.state.arrivals[v]? = m.state.arrivals[v]? := by
  rcases htick.arrivals_cases with heq | ⟨u, g, e, left, s, -, hbetter, heq⟩
  · rw [heq]
  · have hne : e.target ≠ v := by
      rintro rfl
      have hnew : m'.state.arrivals.Reaches e.target (g + e.weight.toNat) := by
        rw [heq]
        exact Arrivals.reaches_enter_self
      obtain ⟨_, hpath, -⟩ := (h.tick hp htick).rooted.path _ _ hnew
      have := hleast hpath.walk
      have := hbetter k hv
      omega
    rw [heq, Arrivals.enter, Std.HashMap.getElem?_insert, if_neg (by simpa using hne)]

/-- **The record of a vertex that has been reached at its distance stays as it is.** -/
theorem getElem?_eq_of_ticks (hp : p.network = .declared calls) (h : m.Sound calls p)
    (hticks : ReflTransGen (Tick p) m m') (hv : m.state.arrivals.Reaches v k)
    (hleast : k ∈ lowerBounds {k | Walk calls p.start v k}) :
    m'.state.arrivals[v]? = m.state.arrivals[v]? := by
  suffices hkept : m'.Sound calls p ∧ m'.state.arrivals[v]? = m.state.arrivals[v]? from hkept.2
  induction hticks with
  | refl => exact ⟨h, rfl⟩
  | @tail m₁ m₂ _ hlast ih =>
    obtain ⟨hsound, heq⟩ := ih
    have hv' : m₁.state.arrivals.Reaches v k := by rwa [Arrivals.Reaches, heq]
    exact ⟨hsound.tick hp hlast, (hlast.getElem?_eq hp hsound hv' hleast).trans heq⟩

/-- Each tick keeps the vertices that have been expanded at their distances. -/
theorem AtDistance.tick (hexact : Exact calls p) (hcons : Consistent calls p.heuristic p.goal)
    (hs : m.Sound calls p) (h : AtDistance calls p m.state) (htick : Tick p m m') :
    AtDistance calls p m'.state := by
  have hkept : ∀ x ∈ m.state.expansions, m'.state.arrivals.Reaches x.vertex x.cost := by
    intro x hx
    obtain ⟨hreach, hleast⟩ := h x hx
    rwa [Arrivals.Reaches, htick.getElem?_eq hexact.network hs hreach hleast.2]
  cases htick with
  | take first other => exact AtDistance.take hexact hcons hs h first
  | @relax v g e left s =>
    intro x hx
    have hx : x ∈ s.expansions := relax_expansions p v g s e ▸ hx
    exact ⟨hkept x hx, (h x hx).2⟩
  | close => exact h

/-- **At each moment all vertices have been expanded at their distances.** -/
theorem AtDistance.of_ticks (hexact : Exact calls p) (hcons : Consistent calls p.heuristic p.goal)
    (hticks : ReflTransGen (Tick p) (.between p.initial) m) : AtDistance calls p m.state := by
  induction hticks with
  | refl => exact fun x hx ↦ absurd hx (Array.not_mem_empty x)
  | tail hticks hlast ih =>
    exact ih.tick hexact hcons (Moment.Sound.of_ticks hexact.network hticks) hlast

/-! ### What one expansion puts on the frontier -/

theorem pushes_expand_le (p : Problem) (v : Vertex) (g : Nat) (s : State) :
    (expand p v g s).pushes ≤ s.pushes + (p.network.edgesOf v).length := by
  show ((p.network.edgesOf v).foldl (relax p v g) s).pushes ≤ _
  generalize p.network.edgesOf v = edges
  induction edges generalizing s with
  | nil => exact Nat.le_refl _
  | cons e edges ih =>
    have hrelax : (relax p v g s e).pushes ≤ s.pushes + 1 := by
      rcases relax_eq_or_counts p v g s e with heq | ⟨r, f, heq⟩
      · rw [heq]
        exact Nat.le_succ _
      · rw [heq]
    have hrest := ih (relax p v g s e)
    rw [List.foldl_cons, List.length_cons]
    omega

theorem pushes_expand_of_settled {g : Nat} (h : Settled p s.arrivals v g) :
    (expand p v g s).pushes = s.pushes := by
  unfold expand
  rw [foldl_relax_eq_self h]

theorem Settled.expand {g i : Nat} (h : Settled p s.arrivals u i) :
    Settled p (expand p v g s).arrivals u i :=
  expand_induction (fun r _ ↦ Settled p r u i) (fun _ _ _ _ h hbetter ↦ h.enter hbetter) h

/-- **What an expansion leaves on the frontier** does not come before the candidate that was
taken. -/
theorem Exact.priority_le_expand (hexact : Exact calls p)
    (hcons : Consistent calls p.heuristic p.goal) (hs : Sound calls p s)
    (first : s.frontier = c :: rest) {d : Candidate}
    (hd : d ∈ (expand p c.vertex (s.costOf c.vertex) (take c rest s)).frontier) :
    c.priority ≤ d.priority := by
  have hreach := hs.reaches_first first
  have hrest : ∀ d ∈ rest, c.priority ≤ d.priority := fun d hd ↦
    (first ▸ hs.covers.ascending).first_le (List.mem_cons_of_mem c hd)
  rcases hs.covers.waiting _ _ hreach with hbusy | hmem | ⟨-, hsettled⟩
  · cases hbusy
  · have hpriority : c.priority = p.priority c.vertex (s.costOf c.vertex) :=
      congrArg Candidate.priority (hexact.eq_candidate_of_waits hs first ⟨hreach, hmem⟩)
    refine And.right (expand_induction (s := take c rest s)
      (fun r f ↦ Underway calls p c.vertex (s.costOf c.vertex) r f ∧
        ∀ d ∈ f, c.priority ≤ d.priority)
      ?_ ⟨hs.underway first, hrest⟩) d hd
    rintro r f e he ⟨hunderway, hle⟩ hbetter
    rw [hexact.network] at he
    have hedge := Network.mem_edgesOf_declared.1 he
    refine ⟨hunderway.enter hedge hbetter, fun d hd ↦ ?_⟩
    rcases Frontier.mem_insert.1 hd with rfl | hd
    · -- The estimate falls along the edge by its weight at most, and the cost rises by it.
      have hx := hunderway.rooted.ne_start_of_better hbetter
      have htotal := hunderway.rooted.add_le_totalWeight hunderway.current hedge hbetter
      rw [Problem.candidate_eq hx, hpriority,
        hexact.priority_le_iff (hs.rooted.le_totalWeight hreach) htotal,
        Problem.rank_of_ne_start hx, hexact.network]
      have hrank := p.rank_le c.vertex (s.costOf c.vertex)
      have hstep := hcons _ _ _ hedge
      rw [hexact.network] at hrank
      omega
    · exact hle d hd
  · rw [(expand_of_settled (s := take c rest s) hsettled).2] at hd
    exact hrest d hd

/-! ### The order of expansions -/

/-- The vertices that have been expanded. -/
def State.expanded (s : State) : Finset Vertex :=
  (s.expansions.toList.map Expansion.vertex).toFinset

theorem State.mem_expanded : v ∈ s.expanded ↔ ∃ x ∈ s.expansions, x.vertex = v := by
  rw [expanded, List.mem_toFinset, List.mem_map]
  simp only [Array.mem_toList_iff]

theorem State.expanded_take : (take c rest s).expanded = insert c.vertex s.expanded := by
  unfold expanded take
  rw [Array.toList_push, List.map_append, List.toFinset_append, Finset.union_comm]
  rfl

/-- The candidates were taken in the order of their priorities, and each vertex has put others on
the frontier once at most. -/
structure Orderly (p : Problem) (s : State) : Prop where
  /-- What has been expanded is settled. -/
  settled : ∀ x ∈ s.expansions, Settled p s.arrivals x.vertex x.cost
  /-- The priorities of the expansions never fall. -/
  sorted : s.expansions.toList.Pairwise fun x y ↦ x.priority ≤ y.priority
  /-- What waits comes after what has been expanded. -/
  ahead : ∀ x ∈ s.expansions, ∀ d ∈ s.frontier, x.priority ≤ d.priority
  /-- No more was put on the frontier than there are edges at the vertices that were expanded. -/
  pushes : s.pushes ≤ ∑ v ∈ s.expanded, (p.network.edgesOf v).length

namespace Orderly

theorem initial (p : Problem) : Orderly p p.initial :=
  ⟨fun x hx ↦ absurd hx (Array.not_mem_empty x), List.Pairwise.nil,
    fun x hx ↦ absurd hx (Array.not_mem_empty x), Nat.zero_le _⟩

/-- Nothing that has been expanded comes after the candidate that is taken. -/
theorem priority_le_first (h : Orderly p s) (first : s.frontier = c :: rest) {x : Expansion}
    (hx : x ∈ (take c rest s).expansions) : x.priority ≤ c.priority := by
  rcases mem_expansions_take.1 hx with hx | rfl
  · exact h.ahead x hx c (first ▸ List.mem_cons_self)
  · exact Nat.le_refl _

theorem sorted_take (h : Orderly p s) (first : s.frontier = c :: rest) :
    (take c rest s).expansions.toList.Pairwise fun x y ↦ x.priority ≤ y.priority := by
  unfold take
  rw [Array.toList_push]
  refine List.pairwise_append.2 ⟨h.sorted, List.pairwise_singleton _ _, fun x hx y hy ↦ ?_⟩
  obtain rfl := List.mem_singleton.1 hy
  exact h.ahead x (Array.mem_toList_iff.1 hx) c (first ▸ List.mem_cons_self)

theorem pushes_take (h : Orderly p s) (c : Candidate) (rest : Frontier) :
    s.pushes ≤ ∑ v ∈ (take c rest s).expanded, (p.network.edgesOf v).length := by
  rw [State.expanded_take]
  exact h.pushes.trans (Finset.sum_le_sum_of_subset (Finset.subset_insert _ _))

/-- A vertex that is expanded again is settled, and puts nothing on the frontier. -/
theorem pushes_expand (h : Orderly p s) (hdist : AtDistance calls p s)
    (c : Candidate) (rest : Frontier) :
    (expand p c.vertex (s.costOf c.vertex) (take c rest s)).pushes ≤
      ∑ v ∈ (take c rest s).expanded, (p.network.edgesOf v).length := by
  by_cases hc : c.vertex ∈ s.expanded
  · obtain ⟨x, hx, hvertex⟩ := State.mem_expanded.1 hc
    have hsettled := h.settled x hx
    have hcost := State.costOf_eq (hdist x hx).1
    rw [hvertex] at hsettled hcost
    rw [hcost, pushes_expand_of_settled (s := take c rest s) hsettled]
    exact h.pushes_take c rest
  · rw [State.expanded_take, Finset.sum_insert hc]
    have hexpand := pushes_expand_le p c.vertex (s.costOf c.vertex) (take c rest s)
    have hpushes : (take c rest s).pushes = s.pushes := rfl
    have := h.pushes
    omega

/-- **Each round keeps the order of expansions.** -/
theorem step (hexact : Exact calls p) (hcons : Consistent calls p.heuristic p.goal)
    (hs : Sound calls p s) (hdist : AtDistance calls p s) (h : Orderly p s)
    (hstep : Step p s t) : Orderly p t := by
  obtain ⟨c, rest, first, other, rfl⟩ := hstep.exists_first
  have hexpansions := expand_expansions p c.vertex (s.costOf c.vertex) (take c rest s)
  refine ⟨?_, ?_, ?_, ?_⟩
  · rw [hexpansions]
    intro x hx
    rcases mem_expansions_take.1 hx with hx | rfl
    · exact Settled.expand (s := take c rest s) (h.settled x hx)
    · exact settled_expand p _ _ _
  · rw [hexpansions]
    exact h.sorted_take first
  · rw [hexpansions]
    intro x hx d hd
    exact Nat.le_trans (h.priority_le_first first hx)
      (hexact.priority_le_expand hcons hs first hd)
  · rw [State.expanded, hexpansions]
    exact h.pushes_expand hdist c rest

/-- **It holds after any number of rounds.** -/
theorem of_rounds (hexact : Exact calls p) (hcons : Consistent calls p.heuristic p.goal)
    (hrounds : ReflTransGen (Step p) p.initial t) : Orderly p t := by
  induction hrounds with
  | refl => exact initial p
  | tail hrounds hlast ih =>
    exact ih.step hexact hcons (Sound.of_rounds hexact.network hrounds)
      (AtDistance.of_ticks hexact hcons (ticks_of_rounds hrounds)) hlast

end Orderly

/-! ### What a search expands -/

/-- **A search with consistent estimates expands each vertex at its distance from the start**, with
the estimate zero or the number of steps along the axes, if that is consistent. The weight of all
edges together with the largest estimate stays below `2 ^ 53`. Candidates are taken in ascending
order of their priorities. The search is a sequence of ticks, and from the moment at which a vertex
is first expanded its record stays as it is. No more is put on the frontier than there are edges at
the vertices that are expanded, each counted once. -/
theorem shortestPath_expansions_of_consistent (calls : List Addition) (start goal : Vertex)
    (h : Heuristic) (hh : h = .zero ∨ h = .manhattan ∧ Consistent calls h goal)
    (hsmall : ∀ v, totalWeight calls + stepsTo (.declared calls) h goal v < 2 ^ 53) :
    (∀ x ∈ (shortestPath (.declared calls) start goal h).expansions,
        IsLeast {k | Walk calls start x.vertex k} x.cost) ∧
      ((shortestPath (.declared calls) start goal h).expansions.Pairwise
        fun x y ↦ x.priority ≤ y.priority) ∧
      (∃ s, ReflTransGen (Tick (.declared calls start goal h))
          (.between (Problem.declared calls start goal h).initial) (.between s) ∧
        Ends (.declared calls start goal h) s
          (run (.declared calls start goal h) (Problem.declared calls start goal h).initial).1
          (run (.declared calls start goal h) (Problem.declared calls start goal h).initial).2) ∧
      (∀ m m', ReflTransGen (Tick (.declared calls start goal h))
          (.between (Problem.declared calls start goal h).initial) m →
        ReflTransGen (Tick (.declared calls start goal h)) m m' →
        ∀ x ∈ m.state.expansions, m'.state.arrivals[x.vertex]? = m.state.arrivals[x.vertex]?) ∧
      (shortestPath (.declared calls) start goal h).outcome.pushes ≤
        ∑ v ∈ ((shortestPath (.declared calls) start goal h).expansions.map
          Expansion.vertex).toFinset, ((Network.declared calls).edgesOf v).length := by
  have hcons : Consistent calls h goal := by
    rcases hh with rfl | ⟨-, hcons⟩
    · exact .zero calls goal
    · exact hcons
  have hexact : Exact calls (.declared calls start goal h) :=
    .of_zero_or_manhattan (hh.imp_right And.left) hsmall
  obtain ⟨s, hrounds, hsound, hends⟩ := exists_sound_end hexact.network
  have hdist := AtDistance.of_ticks hexact hcons (ticks_of_rounds hrounds)
  have horderly := Orderly.of_rounds hexact hcons hrounds
  -- The goal may be taken after the last round.
  have hlast : ∀ cost t, Ends (.declared calls start goal h) s cost t →
      AtDistance calls (.declared calls start goal h) t ∧
        (t.expansions.toList.Pairwise fun x y ↦ x.priority ≤ y.priority) ∧
        t.pushes ≤ ∑ v ∈ t.expanded, ((Network.declared calls).edgesOf v).length := by
    intro cost t hends
    cases hends with
    | drained empty => exact ⟨hdist, horderly.sorted, horderly.pushes⟩
    | @reached c rest first goal =>
      exact ⟨hdist.take hexact hcons hsound first, horderly.sorted_take first,
        horderly.pushes_take c rest⟩
  obtain ⟨hdistance, hsorted, hpushes⟩ := hlast _ _ hends
  refine ⟨fun x hx ↦ (hdistance x (Array.mem_toList_iff.1 hx)).2, hsorted,
    ⟨s, ticks_of_rounds hrounds, hends⟩, fun m m' hticks hticks' x hx ↦ ?_, hpushes⟩
  obtain ⟨hreach, hleast⟩ := AtDistance.of_ticks hexact hcons hticks x hx
  exact getElem?_eq_of_ticks hexact.network (Moment.Sound.of_ticks hexact.network hticks) hticks'
    hreach hleast.2

/-- A network in which `3` is put on the frontier a second time, at a lower cost by way of `2`, and
both candidates of it are taken before the goal is. -/
def shortcut : List Addition :=
  [.vertex 2 ⟨2, 0⟩, .vertex 4 ⟨0, 0⟩, .edge 1 2 2, .edge 1 3 5, .edge 2 3 2, .edge 3 4 3,
    .edge 3 5 0]

theorem consistent_shortcut : Consistent shortcut .manhattan 4 := by
  rintro u v w ⟨c, hc, hjoins⟩
  rw [stepsTo_declared, stepsTo_declared]
  simp only [shortcut, List.mem_cons, List.not_mem_nil, or_false] at hc
  rcases hc with rfl | rfl | rfl | rfl | rfl | rfl | rfl <;>
    rcases hjoins with h | h <;> cases h <;> decide

/-- In that network both are taken at the distance of `3`. -/
theorem shortestPath_expansions_of_consistent_shortcut :
    (∀ x ∈ (shortestPath (.declared shortcut) 1 4 .manhattan).expansions,
        IsLeast {k | Walk shortcut 1 x.vertex k} x.cost) ∧
      (shortestPath (.declared shortcut) 1 4 .manhattan).expansions.Pairwise
        fun x y ↦ x.priority ≤ y.priority := by
  obtain ⟨hdistance, hsorted, -⟩ := shortestPath_expansions_of_consistent shortcut 1 4 .manhattan
    (Or.inr ⟨rfl, consistent_shortcut⟩) (totalWeight_add_stepsTo_lt (by decide))
  exact ⟨hdistance, hsorted⟩

end Exploration

end GraphSearch.Route
