import GraphSearch.Proofs.Route.PathCost

/-!
# Outdated candidates

When a vertex is reached at a lower cost, an older candidate of it stays on the frontier and is
expanded later like any other. To say which candidates are outdated, the search is run here with
dates on its frontier: each candidate stands there with the cost at which its vertex had been
reached (`Dated`). What else an entry keeps of its candidate has no part in a search. Erasing it
from the states gives the rounds of the search (`Step.erase`, `exists_rounds`), and the search
returns the same (`exploration_erase`).

The dates make it possible to skip the edges of a candidate that is outdated. This changes nothing
where estimates are whole numbers, consistent or not (`shortestPath_eq_skipping`). An outdated
candidate that is the first on the frontier does not have the priority of the present cost of its
vertex, so the vertex does not wait any more, and what has been reached and does not wait is settled
and not the goal (`Lawful.settled_of_outdated`).
-/

namespace GraphSearch.Route

open Relation (ReflTransGen)

/-! ### What stands on the frontier beside the candidates -/

section

variable {α : Type} [Entry α]

theorem Frontier.map_candidate_insert (d : α) (f : Frontier α) :
    (Frontier.insert d f).map Entry.candidate =
      Frontier.insert (Entry.candidate d) (f.map Entry.candidate) := by
  induction f with
  | nil => rfl
  | cons e rest ih =>
    rw [Frontier.insert, List.map_cons, Frontier.insert]
    show _ = if (Entry.candidate e).priority ≤ (Entry.candidate d).priority then _ else _
    split
    · rw [List.map_cons, ih]
    · rfl

namespace Exploration

/-- What the search has come to, with nothing but the candidates on the frontier. -/
def State.erase (s : State α) : State where
  arrivals := s.arrivals
  frontier := s.frontier.map Entry.candidate
  pushes := s.pushes
  widest := s.widest
  expansions := s.expansions

variable {p : Problem} {s t : State α} {d : α} {rest : Frontier α}

theorem frontier_erase (first : s.frontier = d :: rest) :
    s.erase.frontier = Entry.candidate d :: rest.map Entry.candidate := by
  rw [State.erase, first, List.map_cons]

theorem erase_initial (p : Problem) : (p.initial α).erase = p.initial := by
  simp only [State.erase, Problem.initial, List.map_cons, List.map_nil, Entry.candidate_enter]
  rfl

theorem erase_relax (p : Problem) (v : Vertex) (g : Nat) (s : State α) (e : Edge) :
    (relax p v g s e).erase = relax p v g s.erase e := by
  by_cases h : s.arrivals.improves e.target (g + e.weight.toNat) = true
  · have herase : s.erase.arrivals.improves e.target (g + e.weight.toNat) = true := h
    rw [relax, if_pos h, State.erase, Frontier.map_candidate_insert, Entry.candidate_enter]
    exact (if_pos herase).symm
  · have herase : ¬s.erase.arrivals.improves e.target (g + e.weight.toNat) = true := h
    rw [relax, if_neg h]
    exact (if_neg herase).symm

theorem erase_foldl_relax (p : Problem) (v : Vertex) (g : Nat) (edges : List Edge) (s : State α) :
    (edges.foldl (relax p v g) s).erase = edges.foldl (relax p v g) s.erase := by
  induction edges generalizing s with
  | nil => rfl
  | cons e edges ih => rw [List.foldl_cons, List.foldl_cons, ih, erase_relax]

theorem erase_expand (p : Problem) (v : Vertex) (g : Nat) (s : State α) (edges : List Edge) :
    (expand p v g s edges).erase = expand p v g s.erase edges := by
  have hwidest : ∀ t : State α,
      ({ t with widest := max t.widest t.frontier.length } : State α).erase =
        { t.erase with widest := max t.erase.widest t.erase.frontier.length } :=
    fun t ↦ by simp [State.erase]
  rw [expand, hwidest, erase_foldl_relax]
  rfl

/-- **Each round goes by the candidates alone.** -/
theorem Step.erase (h : Step p s t) : Step p s.erase t.erase := by
  obtain ⟨first, other⟩ := h
  rw [erase_expand]
  exact .expand (frontier_erase first) other

/-- Each round of the search is one in which more is kept. -/
theorem exists_step {t : State} (h : Step p s.erase t) : ∃ t', Step p s t' ∧ t'.erase = t := by
  obtain ⟨c, rest, first, other, rfl⟩ := h.exists_first
  obtain ⟨d, rest', hfrontier, rfl, rfl⟩ := List.map_eq_cons_iff.1 first
  exact ⟨_, .expand hfrontier other, erase_expand ..⟩

/-- **Each state that the search comes to** is one in which more is kept, without that. -/
theorem exists_rounds (α : Type) [Entry α] {t : State} (h : ReflTransGen (Step p) p.initial t) :
    ∃ s, ReflTransGen (Step p) (p.initial α) s ∧ s.erase = t := by
  induction h with
  | refl => exact ⟨p.initial α, .refl, erase_initial p⟩
  | tail _ hlast ih =>
    obtain ⟨s, hrounds, rfl⟩ := ih
    obtain ⟨t', hstep, heq⟩ := exists_step hlast
    exact ⟨t', hrounds.tail hstep, heq⟩

theorem erase_run (p : Problem) (s : State α) : (run p s).map id State.erase = run p s.erase := by
  induction s using run.induct (α := α) p fun _ _ ↦ false with
  | case1 s hempty =>
    have herase : s.erase.frontier = [] := by rw [State.erase, hempty, List.map_nil]
    rw [run_of_empty hempty, run_of_empty herase]
    rfl
  | case2 s d rest first c goal =>
    rw [run_of_goal first goal, run_of_goal (frontier_erase first) goal]
    rfl
  | case3 s d rest first c cost taken other ih =>
    rw [run_of_other first other, run_of_other (frontier_erase first) other, ih, erase_expand]
    rfl

/-- **What a search returns** goes by the candidates alone. -/
theorem exploration_erase (p : Problem) :
    p.exploration (run p (p.initial α)) = p.exploration (run p p.initial) := by
  rw [← erase_initial (α := α) p, ← erase_run]
  rfl

end Exploration

end

namespace Exploration

/-! ### Candidates with dates -/

/-- A candidate with the cost at which its vertex had been reached when it was put on the
frontier. -/
structure Dated where
  /-- The candidate. -/
  candidate : Candidate
  /-- The cost of its vertex at that time. -/
  cost : Nat

namespace Dated

/-- The vertex to be expanded. -/
abbrev vertex (d : Dated) : Vertex := d.candidate.vertex

instance : Entry Dated where
  candidate := candidate
  enter := mk
  candidate_enter _ _ := rfl

end Dated

/-- The vertex of the candidate has been reached at a lower cost since it was put on the
frontier. -/
def State.Outdated (s : State Dated) (d : Dated) : Prop := s.costOf d.vertex < d.cost

instance (s : State Dated) (d : Dated) : Decidable (s.Outdated d) :=
  inferInstanceAs (Decidable (_ < _))

/-- Searches the network for a shortest path with dated candidates, where the edges of outdated ones
are skipped or not. -/
def Dated.shortestPath (skip : Bool) (n : Network) (start goal : Vertex) (h : Heuristic) :
    Exploration :=
  let p : Problem := ⟨n, start, goal, h, fun a b ↦ h.estimate a b⟩
  p.exploration (run p (p.initial Dated) fun s d ↦ skip && s.Outdated d)

/-- **The search with dates that skips nothing is the search.** -/
theorem Dated.shortestPath_false (n : Network) (start goal : Vertex) (h : Heuristic) :
    Dated.shortestPath false n start goal h = Route.shortestPath n start goal h :=
  exploration_erase _

/-! ### What the dates say -/

variable {calls : List Addition} {p : Problem} {s t : State Dated} {d : Dated}
  {rest : Frontier Dated} {c : Vertex} {g : Nat}

/-- The priority of a candidate is that of its date, and the start is put on the frontier once, at
no cost. -/
structure Dated.Valid (calls : List Addition) (p : Problem) (d : Dated) : Prop where
  /-- The candidate has the priority of the cost. -/
  priority : d.candidate.priority = p.priority d.vertex d.cost
  /-- The cost is that of a path. -/
  small : d.cost ≤ totalWeight calls
  /-- The start costs nothing. -/
  start : d.vertex = p.start → d.cost = 0

/-- What holds before and after each round. -/
structure Lawful (calls : List Addition) (p : Problem) (s : State Dated) : Prop where
  /-- What holds of a search holds without the dates. -/
  sound : Sound calls p s.erase
  /-- The dates are those of the candidates. -/
  valid : ∀ d ∈ s.frontier, d.Valid calls p

theorem Dated.valid_of_better {r : Arrivals} {f : Frontier} {x : Vertex} {w : UInt32}
    (h : Underway calls p c g r f) (hedge : Joined calls c x w)
    (hbetter : ∀ j, r.Reaches x j → g + w.toNat < j) :
    Dated.Valid calls p ⟨p.candidate x (g + w.toNat), g + w.toNat⟩ := by
  have hx := h.rooted.ne_start_of_better hbetter
  refine ⟨?_, ?_, fun hstart ↦ absurd hstart hx⟩
  · exact congrArg Candidate.priority (Problem.candidate_eq hx _)
  · exact h.rooted.add_le_totalWeight h.current hedge hbetter

theorem valid_relax (hp : p.network = .declared calls) {e : Edge}
    (he : e ∈ p.network.edgesOf c) (hunderway : Underway calls p c g s.arrivals s.erase.frontier)
    (hvalid : ∀ d ∈ s.frontier, d.Valid calls p) :
    ∀ d ∈ (relax p c g s e).frontier, d.Valid calls p := by
  by_cases h : s.arrivals.improves e.target (g + e.weight.toNat) = true
  · rw [relax, if_pos h]
    intro d hd
    rcases Frontier.mem_insert.1 hd with rfl | hd
    · rw [hp] at he
      exact Dated.valid_of_better hunderway (Network.mem_edgesOf_declared.1 he)
        (Arrivals.improves_iff.1 h)
    · exact hvalid d hd
  · rwa [relax, if_neg h]

namespace Lawful

theorem initial (calls : List Addition) (p : Problem) : Lawful calls p (p.initial Dated) := by
  refine ⟨erase_initial (α := Dated) p ▸ Sound.initial calls p, fun d hd ↦ ?_⟩
  obtain rfl := List.mem_singleton.1 hd
  exact ⟨(if_pos rfl).symm, Nat.zero_le _, fun _ ↦ rfl⟩

/-- **Each round keeps the dates.** -/
theorem step (hp : p.network = .declared calls) (h : Lawful calls p s) (hstep : Step p s t) :
    Lawful calls p t := by
  refine ⟨h.sound.step hp hstep.erase, ?_⟩
  obtain ⟨first, other⟩ := hstep
  rename_i d rest
  refine And.right (List.foldlRecOn (motive := fun t : State Dated ↦
    Underway calls p d.vertex (s.costOf d.vertex) t.arrivals t.erase.frontier ∧
      ∀ d ∈ t.frontier, d.Valid calls p) _ _ ⟨h.sound.underway (frontier_erase first), ?_⟩ ?_)
  · exact fun e he ↦ h.valid e (first ▸ List.mem_cons_of_mem d he)
  · rintro t ⟨hunderway, hvalid⟩ e he
    have hrelax := Underway.relax (s := t.erase) hp he hunderway
    rw [← erase_relax] at hrelax
    exact ⟨hrelax, valid_relax hp he hunderway hvalid⟩

/-- **It holds after any number of rounds.** -/
theorem of_rounds (hp : p.network = .declared calls)
    (hrounds : ReflTransGen (Step p) (p.initial Dated) t) : Lawful calls p t := by
  induction hrounds with
  | refl => exact initial calls p
  | tail _ hlast ih => exact ih.step hp hlast

/-- **The vertex of an outdated candidate is settled** when the candidate is the first on the
frontier, and it is not the goal. -/
theorem settled_of_outdated (hexact : Exact calls p) (h : Lawful calls p s)
    (first : s.frontier = d :: rest) (houtdated : s.Outdated d) :
    d.vertex ≠ p.goal ∧ Settled p s.arrivals d.vertex (s.costOf d.vertex) := by
  have hreach : s.arrivals.Reaches d.vertex (s.costOf d.vertex) :=
    h.sound.reaches_first (frontier_erase first)
  obtain ⟨hpriority, hsmall, hstart⟩ := h.valid d (first ▸ List.mem_cons_self)
  have houtdated : s.costOf d.vertex < d.cost := houtdated
  rcases h.sound.covers.waiting _ _ hreach with hbusy | hmem | hsettled
  · cases hbusy
  · -- The candidate with which the vertex waits is this one, and has the date of the present cost.
    have heq : d.candidate.priority = p.priority d.vertex (s.costOf d.vertex) :=
      congrArg Candidate.priority
        (hexact.eq_candidate_of_waits h.sound (frontier_erase first) ⟨hreach, hmem⟩)
    rw [hpriority] at heq
    by_cases hs : d.vertex = p.start
    · have := hstart hs
      omega
    · have := (hexact.priority_inj hs hsmall (h.sound.rooted.le_totalWeight hreach)).1 heq
      omega
  · exact hsettled

/-- Going along the edges of an outdated candidate changes nothing. -/
theorem foldl_relax_of_outdated (hexact : Exact calls p) (h : Lawful calls p s)
    (first : s.frontier = d :: rest) (houtdated : s.Outdated d) :
    (p.network.edgesOf d.vertex).foldl (relax p d.vertex (s.costOf d.vertex)) (take d rest s) =
      take d rest s := by
  obtain ⟨-, hsettled⟩ := h.settled_of_outdated hexact first houtdated
  refine List.foldlRecOn (motive := fun t : State Dated ↦ t = take d rest s) _ _ rfl ?_
  rintro t rfl e he
  exact if_neg (Arrivals.not_improves_iff.2 (hsettled e he))

/-- **Skipping the edges of outdated candidates makes no difference to a round.** -/
theorem expand_eq (hexact : Exact calls p) (h : Lawful calls p s)
    (first : s.frontier = d :: rest) :
    expand p d.vertex (s.costOf d.vertex) (take d rest s)
        (edgesFor p d.candidate (s.Outdated d)) =
      expand p d.vertex (s.costOf d.vertex) (take d rest s) := by
  by_cases houtdated : s.Outdated d
  · have hall := h.foldl_relax_of_outdated hexact first houtdated
    simp [expand, edgesFor, houtdated, hall]
  · simp [edgesFor, houtdated]

/-- Nor does it to the whole search. -/
theorem run_eq (hexact : Exact calls p) (h : Lawful calls p s) :
    run p s (fun s d ↦ s.Outdated d) = run p s := by
  induction s using run.induct (α := Dated) p fun _ _ ↦ false with
  | case1 s hempty => rw [run_of_empty hempty, run_of_empty hempty]
  | case2 s d rest first c goal => rw [run_of_goal first goal, run_of_goal first goal]
  | case3 s d rest first c cost taken other ih =>
    rw [run_of_other first other, run_of_other first other]
    refine Eq.trans ?_ (ih (h.step hexact.network (.expand first other)))
    exact congrArg (fun t ↦ run p t fun s d ↦ s.Outdated d) (h.expand_eq hexact first)

end Lawful

/-- **Outdated candidates do no harm**, with the estimate zero or the number of steps along the
axes, be it admissible or not. The weight of all edges together with the largest estimate stays
below `2 ^ 53`. Each state that the search comes to is one whose candidates are dated; whenever the
first of them is outdated, it does not belong to the goal, and going along the edges of its vertex
changes nothing. So the search returns the same if these edges are skipped. -/
theorem shortestPath_eq_skipping (calls : List Addition) (start goal : Vertex) (h : Heuristic)
    (hh : h = .zero ∨ h = .manhattan)
    (hsmall : ∀ v, totalWeight calls + stepsTo (.declared calls) h goal v < 2 ^ 53) :
    (∀ t, ReflTransGen (Step (.declared calls start goal h))
        (Problem.declared calls start goal h).initial t →
      ∃ s, ReflTransGen (Step (.declared calls start goal h))
        ((Problem.declared calls start goal h).initial Dated) s ∧ s.erase = t) ∧
      (∀ s, ReflTransGen (Step (.declared calls start goal h))
          ((Problem.declared calls start goal h).initial Dated) s →
        ∀ d rest, s.frontier = d :: rest → s.Outdated d →
          d.vertex ≠ goal ∧
            ((Network.declared calls).edgesOf d.vertex).foldl
                (relax (.declared calls start goal h) d.vertex (s.costOf d.vertex))
                (take d rest s) =
              take d rest s) ∧
      Dated.shortestPath false (.declared calls) start goal h =
        shortestPath (.declared calls) start goal h ∧
      Dated.shortestPath true (.declared calls) start goal h =
        shortestPath (.declared calls) start goal h := by
  have hexact : Exact calls (.declared calls start goal h) := .of_zero_or_manhattan hh hsmall
  have hrun := (Lawful.initial calls (Problem.declared calls start goal h)).run_eq hexact
  refine ⟨fun t ht ↦ exists_rounds Dated ht, fun s hrounds d rest first houtdated ↦ ?_,
    Dated.shortestPath_false _ start goal h, ?_⟩
  · have hlawful : Lawful calls (.declared calls start goal h) s := .of_rounds rfl hrounds
    exact ⟨(hlawful.settled_of_outdated hexact first houtdated).1,
      hlawful.foldl_relax_of_outdated hexact first houtdated⟩
  · rw [← Dated.shortestPath_false]
    exact congrArg (Problem.declared calls start goal h).exploration hrun

/-- A network in which `3` is expanded again at a lower cost, since the estimate for `2` is high,
and the older candidate of `4` is outdated when it is taken. -/
def reopened : List Addition :=
  [.vertex 2 ⟨11, 0⟩, .vertex 5 ⟨0, 0⟩, .edge 1 2 1, .edge 1 3 3, .edge 2 3 1, .edge 3 4 10,
    .edge 4 5 10]

/-- In that network nothing changes if the edges of the outdated candidate are skipped. -/
theorem shortestPath_eq_skipping_reopened :
    Dated.shortestPath true (.declared reopened) 1 5 .manhattan =
      shortestPath (.declared reopened) 1 5 .manhattan :=
  (shortestPath_eq_skipping reopened 1 5 .manhattan (Or.inr rfl)
    (totalWeight_add_stepsTo_lt (by decide))).2.2.2

end Exploration

end GraphSearch.Route
