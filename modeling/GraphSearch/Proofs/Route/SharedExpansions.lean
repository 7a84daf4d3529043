import GraphSearch.Proofs.Route.ConsistentEstimates

/-!
# What an informed search has in common with an uninformed one

Let `c` be the weight of the lightest walk to the goal. A search with the estimate zero expands each
vertex that a walk of less than that weight leads to (`Exact.mem_expanded_of_walk`). At the end the
goal is the first candidate, so nothing waits any more whose cost is lower; and what has been
reached and does not wait has been expanded (`mem_expanded_or_waits`).

A search with other estimates takes a candidate with the priority of some cost at which its vertex
has been reached (`Traced`). If that priority is below `c`, so is the cost, since an estimate only
adds to it, and a walk that weighs no more than the cost leads to the vertex. So the candidates with
lower priorities than `c` are of vertices that the search with the estimate zero expands as well
(`shortestPath_expansions_shared`), although it may do so in another order. At the priority `c`
itself, where ties are broken by what was put on the frontier first, the two may differ.
-/

namespace GraphSearch.Route

open Numeric (Binary64)

namespace Exploration

open Relation (ReflTransGen)

variable {calls : List Addition} {p : Problem} {s t : State} {c : Candidate} {rest : Frontier}
  {v : Vertex} {k : Nat}

/-! ### What does not wait has been expanded -/

/-- What an expansion reaches is put on the frontier. -/
theorem mem_expanded_or_waits_expand (hp : p.network = .declared calls) (hs : Sound calls p s)
    (h : ∀ v k, s.arrivals.Reaches v k → v ∈ s.expanded ∨ ⟨v, p.priority v k⟩ ∈ s.frontier)
    (first : s.frontier = c :: rest) :
    ∀ v k, (expand p c.vertex (s.costOf c.vertex) (take c rest s)).arrivals.Reaches v k →
      v ∈ (take c rest s).expanded ∨
        ⟨v, p.priority v k⟩ ∈
          (expand p c.vertex (s.costOf c.vertex) (take c rest s)).frontier := by
  refine And.right (expand_induction (s := take c rest s)
    (fun r f ↦ Underway calls p c.vertex (s.costOf c.vertex) r f ∧
      ∀ v k, r.Reaches v k → v ∈ (take c rest s).expanded ∨ ⟨v, p.priority v k⟩ ∈ f)
    ?_ ⟨hs.underway first, fun v k hv ↦ ?_⟩)
  · rintro r f e he ⟨hunderway, hwaits⟩ hbetter
    rw [hp] at he
    refine ⟨hunderway.enter (Network.mem_edgesOf_declared.1 he) hbetter, fun v k hv ↦ ?_⟩
    rw [Frontier.mem_insert, Problem.candidate_eq (hunderway.rooted.ne_start_of_better hbetter)]
    rcases Arrivals.reaches_enter.1 hv with ⟨rfl, rfl⟩ | ⟨-, hv⟩
    · exact Or.inr (Or.inl rfl)
    · exact (hwaits v k hv).imp_right Or.inr
  · rw [State.expanded_take, Finset.mem_insert]
    rcases h v k hv with hmem | hmem
    · exact Or.inl (Or.inr hmem)
    · rw [first] at hmem
      rcases List.mem_cons.1 hmem with heq | hmem
      · exact Or.inl (Or.inl (congrArg Candidate.vertex heq))
      · exact Or.inr hmem

/-- **What has been reached has been expanded or waits** with the priority of its present cost. -/
theorem mem_expanded_or_waits (hp : p.network = .declared calls)
    (hrounds : ReflTransGen (Step p) p.initial s) (v : Vertex) (k : Nat)
    (hv : s.arrivals.Reaches v k) : v ∈ s.expanded ∨ ⟨v, p.priority v k⟩ ∈ s.frontier := by
  induction hrounds generalizing v k with
  | refl =>
    obtain ⟨rfl, -⟩ := Arrivals.eq_start_of_reaches hv
    exact Or.inr (p.start_mem_initial k)
  | tail hrounds hlast ih =>
    obtain ⟨c, rest, first, -, rfl⟩ := hlast.exists_first
    rw [State.expanded, expand_expansions]
    exact mem_expanded_or_waits_expand hp (.of_rounds hp hrounds) ih first v k hv

/-! ### What a search with the estimate zero expands -/

/-- **A vertex to which a walk leads that weighs less than what the first candidate costs** has been
expanded, if nothing is estimated. -/
theorem Exact.mem_expanded_of_walk (hexact : Exact calls p)
    (hzero : ∀ v, stepsTo p.network p.heuristic p.goal v = 0)
    (hrounds : ReflTransGen (Step p) p.initial s) (first : s.frontier = c :: rest)
    (hwalk : Walk calls p.start v k) (hlt : k < s.costOf c.vertex) : v ∈ s.expanded := by
  have hs := Sound.of_rounds hexact.network hrounds
  have hc := hs.reaches_first first
  have hstart : c.vertex ≠ p.start := by
    intro heq
    rw [heq, State.costOf_eq hs.rooted.reaches_start] at hlt
    exact absurd hlt (Nat.not_lt_zero k)
  -- Nothing that waits costs less than the first candidate.
  have hle : ∀ x i, s.arrivals.Reaches x i → ⟨x, p.priority x i⟩ ∈ s.frontier →
      s.costOf c.vertex ≤ i := by
    intro x i hx hwaits
    have hrank := hexact.rank_first_le hs first hc hx hwaits
    rw [Problem.rank_of_ne_start hstart, hzero] at hrank
    have := p.rank_le x i
    rw [hzero] at this
    omega
  rcases hs.reaches_or_waits hexact.network hwalk hs.rooted.reaches_start with
    ⟨i, hi, hv⟩ | ⟨x, i, m, hx, hwaits, -, hi⟩
  · rcases mem_expanded_or_waits hexact.network hrounds v i hv with hmem | hwaits
    · exact hmem
    · have := hle v i hv hwaits
      omega
  · have := hle x i hx hwaits
    omega

/-! ### The priorities of expansions -/

/-- What has been expanded was taken with the priority of a cost that some walk to it does not
exceed. -/
def Traced (calls : List Addition) (p : Problem) (s : State) : Prop :=
  ∀ x ∈ s.expansions, ∃ k ≤ totalWeight calls,
    x.priority = p.priority x.vertex k ∧ ∃ j ≤ k, Walk calls p.start x.vertex j

theorem Traced.take (h : Traced calls p s) (hs : Sound calls p s)
    (first : s.frontier = c :: rest) : Traced calls p (take c rest s) := by
  intro x hx
  rcases mem_expansions_take.1 hx with hx | rfl
  · exact h x hx
  · obtain ⟨k, hk, hpriority, j, hj, hreach⟩ := hs.covers.entry c (first ▸ List.mem_cons_self)
    obtain ⟨_, hpath, -⟩ := hs.rooted.path _ _ hreach
    exact ⟨k, hk, hpriority, j, hj, hpath.walk⟩

theorem Traced.of_rounds (hp : p.network = .declared calls)
    (hrounds : ReflTransGen (Step p) p.initial s) : Traced calls p s := by
  induction hrounds with
  | refl => exact fun x hx ↦ absurd hx (Array.not_mem_empty x)
  | tail hrounds hlast ih =>
    obtain ⟨c, rest, first, -, rfl⟩ := hlast.exists_first
    rw [Traced, expand_expansions]
    exact Traced.take ih (.of_rounds hp hrounds) first

theorem Traced.of_ends {cost : Option Nat} (h : Traced calls p s) (hs : Sound calls p s)
    (hends : Ends p s cost t) : Traced calls p t := by
  cases hends with
  | drained empty => exact h
  | reached first goal => exact h.take hs first

/-- What is taken with a priority below a number is the end of a walk whose weight is below it. -/
theorem Exact.exists_walk_of_priority_lt (hexact : Exact calls p) (h : Traced calls p s)
    {x : Expansion} (hx : x ∈ s.expansions) {n : Nat} (hn : n < 2 ^ 53)
    (hlt : x.priority < .ofNat n) : ∃ j < n, Walk calls p.start x.vertex j := by
  obtain ⟨k, hk, hpriority, j, hj, hwalk⟩ := h x hx
  rw [hpriority, hexact.priority_eq _ hk,
    Binary64.ofNat_lt_ofNat (hexact.rank_lt _ hk) hn] at hlt
  by_cases hstart : x.vertex = p.start
  · exact ⟨0, (Nat.zero_le _).trans_lt hlt, hstart ▸ .refl _⟩
  · rw [Problem.rank_of_ne_start hstart] at hlt
    exact ⟨j, by omega, hwalk⟩

/-! ### Both searches -/

/-- What was expanded in the rounds of a search is among its expansions at the end. -/
theorem Ends.mem_expansions {cost : Option Nat} (h : Ends p s cost t) {x : Expansion}
    (hx : x ∈ s.expansions) : x ∈ t.expansions := by
  cases h with
  | drained empty => exact hx
  | reached first goal => exact mem_expansions_take.2 (Or.inl hx)

/-- The first candidate is expanded next. -/
theorem mem_expansions_run (p : Problem) (first : s.frontier = c :: rest) :
    ⟨c.vertex, s.costOf c.vertex, c.priority⟩ ∈ (run p s).2.expansions := by
  have htaken : ⟨c.vertex, s.costOf c.vertex, c.priority⟩ ∈ (take c rest s).expansions :=
    mem_expansions_take.2 (Or.inr rfl)
  by_cases goal : c.vertex = p.goal
  · rwa [run_of_goal first goal]
  · rw [run_of_other first goal]
    obtain ⟨t, hrounds, hends⟩ :=
      exists_ends p (expand p c.vertex (s.costOf c.vertex) (take c rest s))
    refine hends.mem_expansions (kept_of_rounds
      (fun t ↦ (⟨c.vertex, s.costOf c.vertex, c.priority⟩ : Expansion) ∈ t.expansions) ?_ ?_
      hrounds)
    · intro s t hmem hstep
      obtain ⟨c, rest, first, -, rfl⟩ := hstep.exists_first
      rw [expand_expansions]
      exact mem_expansions_take.2 (Or.inl hmem)
    · rwa [expand_expansions]

/-- **A search that estimates the distance in steps along the axes stays within the search that
estimates nothing**: let `c` be the weight of the lightest walk from the start to the goal. Each
vertex that the first search takes from the frontier with a priority below `c` is taken by the
second one as well. The weight of all edges together with the largest estimate stays below
`2 ^ 53`. -/
theorem shortestPath_expansions_shared (calls : List Addition) (start goal : Vertex)
    (hsmall : ∀ v, totalWeight calls + stepsTo (.declared calls) .manhattan goal v < 2 ^ 53)
    {c : Nat} (hc : IsLeast {k | Walk calls start goal k} c) {x : Expansion}
    (hx : x ∈ (shortestPath (.declared calls) start goal .manhattan).expansions)
    (hlt : x.priority < .ofNat c) :
    ∃ y ∈ (shortestPath (.declared calls) start goal .zero).expansions, y.vertex = x.vertex := by
  have htotal : totalWeight calls < 2 ^ 53 := (Nat.le_add_right _ _).trans_lt (hsmall goal)
  have hzero : Exact calls (.declared calls start goal .zero) :=
    .of_zero_or_manhattan (Or.inl rfl) fun _ ↦ htotal
  have hsteps : Exact calls (.declared calls start goal .manhattan) :=
    .of_zero_or_manhattan (Or.inr rfl) hsmall
  -- The search that estimates nothing ends with the goal, at the cost `c`.
  obtain ⟨s, hrounds, hsound, hends⟩ := exists_sound_end hzero.network
  rcases hsound.outcome_of_ends rfl hends with ⟨-, hnone, -⟩ | ⟨g, rest, -, first, rfl, -, -, -⟩
  · have hpath : (shortestPath (.declared calls) start goal .zero).outcome.found = true :=
      (found_iff_connected ..).2 ⟨c, hc.1⟩
    rw [Outcome.found, hnone] at hpath
    cases hpath
  have hgoal := hsound.reaches_first first
  obtain ⟨_, hpath, -⟩ := hsound.rooted.path _ _ hgoal
  have hcost : c ≤ s.costOf g.vertex := hc.2 hpath.walk
  -- The other search takes `x` at a cost below `c`.
  obtain ⟨s', hrounds', hsound', hends'⟩ := exists_sound_end hsteps.network
  have htraced := (Traced.of_rounds rfl hrounds').of_ends hsound' hends'
  obtain ⟨j, hj, hwalk⟩ := hsteps.exists_walk_of_priority_lt htraced (Array.mem_toList_iff.1 hx)
    ((hcost.trans (hsound.rooted.le_totalWeight hgoal)).trans_lt htotal) hlt
  have hmem := hzero.mem_expanded_of_walk (fun _ ↦ rfl) hrounds first hwalk (hj.trans_le hcost)
  obtain ⟨y, hy, hvertex⟩ := State.mem_expanded.1 hmem
  exact ⟨y, Array.mem_toList_iff.2 (hends.mem_expansions hy), hvertex⟩

/-- A network in which the goal `3` is reached by way of `2`, whose estimate is below what
remains. -/
def approach : List Addition :=
  [.vertex 2 ⟨1, 0⟩, .vertex 3 ⟨0, 0⟩, .edge 1 2 1, .edge 2 3 5]

theorem isLeast_approach : IsLeast {k | Walk approach 1 3 k} 6 := by
  refine ⟨.head (x := 2) (w := 1) ?_ (.head (w := 5) ?_ (.refl 3)), fun k hwalk ↦ ?_⟩
  · exact ⟨.edge 1 2 1, by decide, Or.inl rfl⟩
  · exact ⟨.edge 2 3 5, by decide, Or.inl rfl⟩
  · have hfall : ∀ u x w, Joined approach u x w →
        (if u = 3 then 0 else if u = 2 then 5 else 6) ≤
          w.toNat + if x = 3 then 0 else if x = 2 then 5 else 6 := by
      rintro u x w ⟨c, hc, hjoins⟩
      simp only [approach, List.mem_cons, List.not_mem_nil, or_false] at hc
      rcases hc with rfl | rfl | rfl | rfl <;> rcases hjoins with h | h <;> cases h <;> decide
    exact hwalk.le_add hfall

/-- In that network `2` is taken at the cost `1`. -/
theorem mem_expansions_approach :
    ⟨2, 1, (Problem.declared approach 1 3 .manhattan).priority 2 1⟩ ∈
      (shortestPath (.declared approach) 1 3 .manhattan).expansions := by
  have hedges : (Network.declared approach).edgesOf 1 = [⟨2, 1⟩] := by
    rw [Network.edgesOf_declared]
    decide
  obtain ⟨s, hs⟩ : ∃ s, s = expand (.declared approach 1 3 .manhattan) 1 0
      (take ⟨1, .ofNat 0⟩ [] (Problem.declared approach 1 3 .manhattan).initial) := ⟨_, rfl⟩
  have hrun : run (.declared approach 1 3 .manhattan)
      (Problem.declared approach 1 3 .manhattan).initial =
        run (.declared approach 1 3 .manhattan) s := by
    have hstart : (Problem.declared approach 1 3 .manhattan).initial.costOf 1 = 0 :=
      State.costOf_eq (Arrivals.rooted_singleton approach 1).reaches_start
    rw [hs, run_of_other (d := ⟨1, .ofNat 0⟩) rfl (by decide), Entry.candidate_self, hstart]
    rfl
  have hcost : s.costOf 2 = 1 := by
    simp [hs, expand, hedges, relax, take, Problem.initial, Arrivals.improves, State.costOf]
  have hfirst : s.frontier =
      [⟨2, (Problem.declared approach 1 3 .manhattan).priority 2 1⟩] := by
    simp [hs, expand, hedges, relax, take, Problem.initial, Arrivals.improves, Frontier.insert,
      Problem.priority]
  have htaken := mem_expansions_run (.declared approach 1 3 .manhattan) hfirst
  rw [hcost, ← hrun] at htaken
  exact Array.mem_toList_iff.2 htaken

/-- There `2` is taken with the priority `2`, and the search with the estimate zero takes it too. -/
theorem shortestPath_expansions_shared_approach :
    ∃ y ∈ (shortestPath (.declared approach) 1 3 .zero).expansions, y.vertex = 2 := by
  have hexact : Exact approach (.declared approach 1 3 .manhattan) :=
    .of_zero_or_manhattan (Or.inr rfl) (totalWeight_add_stepsTo_lt (by decide))
  refine shortestPath_expansions_shared approach 1 3 hexact.small isLeast_approach
    mem_expansions_approach ?_
  have hrank : (Problem.declared approach 1 3 .manhattan).rank 2 1 = 2 := by
    rw [Problem.rank_of_ne_start (by decide), stepsTo_declared]
    decide
  have hpriority := hexact.priority_eq 2 (k := 1) (by decide)
  rw [hrank] at hpriority
  show (Problem.declared approach 1 3 .manhattan).priority 2 1 < .ofNat 6
  rw [hpriority]
  exact (Binary64.ofNat_lt_ofNat (by decide) (by decide)).2 (by decide)

end Exploration

end GraphSearch.Route
