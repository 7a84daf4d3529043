import GraphSearch.Proofs.Route.WayBack

/-!
# The rounds of a search for a path

A search goes from state to state in rounds (`Step`) until the frontier is empty or the goal is the
first on it (`Ends`). There is no endless sequence of rounds (`wellFounded_step`), and what a search
comes to is an end that finitely many rounds lead to (`exists_ends`). What each round keeps holds
there as well (`kept_of_rounds`).

The notion that says what the frontier is for is `Covers`: a vertex that has been reached either
waits on the frontier with the priority of its present cost, or it is not the goal and is `Settled`,
which means that no edge of it leads anywhere at a lower cost than what has been reached. An
expansion takes a vertex from the frontier, and while its edges are gone along it is exempt
(`Underway`). Afterwards it is settled. Nothing here depends on what the estimates are.
-/

namespace GraphSearch.Route

open Numeric (Binary64)
open Relation (ReflTransGen)
open Arrivals (Rooted)

/-! ### The order of the frontier -/

/-- The candidates stand in ascending order of their priorities. -/
def Frontier.Ascending (f : Frontier) : Prop := f.Pairwise fun c d ↦ c.priority ≤ d.priority

theorem Frontier.Ascending.insert {f : Frontier} (h : f.Ascending) (c : Candidate) :
    (f.insert c).Ascending := by
  induction f with
  | nil => exact List.pairwise_singleton _ _
  | cons d rest ih =>
    obtain ⟨hd, hrest⟩ := List.pairwise_cons.1 h
    unfold Frontier.insert
    split
    · rename_i hle
      refine List.pairwise_cons.2 ⟨fun e he ↦ ?_, ih hrest⟩
      rcases Frontier.mem_insert.1 he with rfl | he
      · exact hle
      · exact hd e he
    · rename_i hle
      have hcd : c.priority.units ≤ d.priority.units := Nat.le_of_not_le hle
      refine List.pairwise_cons.2 ⟨fun e he ↦ ?_, h⟩
      rcases List.mem_cons.1 he with rfl | he
      · exact hcd
      · exact Nat.le_trans hcd (hd e he)

/-- The first candidate has the lowest priority. -/
theorem Frontier.Ascending.first_le {c d : Candidate} {rest : Frontier}
    (h : Frontier.Ascending (c :: rest)) (hd : d ∈ c :: rest) : c.priority ≤ d.priority := by
  rcases List.mem_cons.1 hd with rfl | hd
  · exact Nat.le_refl _
  · exact (List.pairwise_cons.1 h).1 d hd

namespace Exploration

/-! ### Rounds -/

/-- One round: the first candidate is expanded, since it is not the goal. -/
inductive Step {α : Type} [Entry α] (p : Problem) : State α → State α → Prop where
  /-- The first candidate is taken from the frontier, and all edges of its vertex are gone along. -/
  | expand {s : State α} {d : α} {rest : Frontier α} (first : s.frontier = d :: rest)
      (other : (Entry.candidate d).vertex ≠ p.goal) :
      Step p s (expand p (Entry.candidate d).vertex (s.costOf (Entry.candidate d).vertex)
        (take d rest s))

/-- How a search ends in a state: with the cost of the goal, if there is one, and the last state. -/
inductive Ends (p : Problem) : State → Option Nat → State → Prop where
  /-- The frontier is empty. -/
  | drained {s : State} (empty : s.frontier = []) : Ends p s none s
  /-- The goal is the first candidate. -/
  | reached {s : State} {c : Candidate} {rest : Frontier} (first : s.frontier = c :: rest)
      (goal : c.vertex = p.goal) : Ends p s (some (s.costOf c.vertex)) (take c rest s)

variable {p : Problem} {s t : State}

/-- The last state has the same record. -/
theorem Ends.arrivals_eq {cost : Option Nat} (h : Ends p s cost t) : t.arrivals = s.arrivals := by
  cases h <;> rfl

/-- What a round does, where nothing but candidates stands on the frontier. -/
theorem Step.exists_first (h : Step p s t) :
    ∃ c rest, s.frontier = c :: rest ∧ c.vertex ≠ p.goal ∧
      t = Exploration.expand p c.vertex (s.costOf c.vertex) (take c rest s) := by
  obtain ⟨first, other⟩ := h
  exact ⟨_, _, first, other, rfl⟩

/-- **There is no endless sequence of rounds**, whatever the estimates are. -/
theorem wellFounded_step (p : Problem) : WellFounded fun t s : State ↦ Step p s t := by
  refine Subrelation.wf ?_ (InvImage.wf (measure p)
    (Prod.lex Nat.lt_wfRel (Prod.lex Nat.lt_wfRel Nat.lt_wfRel)).wf)
  rintro t s ⟨first, -⟩
  exact measure_expand_lt first fun _ he ↦ he

section

variable {α : Type} [Entry α] {s : State α} {d : α} {rest : Frontier α}
  {skips : State α → α → Bool}

theorem run_of_empty (h : s.frontier = []) : run p s skips = (none, s) := by
  rw [run]
  split
  · rfl
  · simp_all

theorem run_of_goal (first : s.frontier = d :: rest)
    (goal : (Entry.candidate d).vertex = p.goal) :
    run p s skips = (some (s.costOf (Entry.candidate d).vertex), take d rest s) := by
  rw [run]
  split
  · simp_all
  · rename_i h
    obtain ⟨rfl, rfl⟩ := List.cons.inj (first.symm.trans h)
    exact if_pos goal

theorem run_of_other (first : s.frontier = d :: rest)
    (other : (Entry.candidate d).vertex ≠ p.goal) :
    run p s skips = run p (expand p (Entry.candidate d).vertex
      (s.costOf (Entry.candidate d).vertex) (take d rest s)
      (edgesFor p (Entry.candidate d) (skips s d))) skips := by
  rw [run]
  split
  · simp_all
  · rename_i h
    obtain ⟨rfl, rfl⟩ := List.cons.inj (first.symm.trans h)
    exact if_neg other

end

/-- **A search comes to an end** that finitely many rounds lead to. -/
theorem exists_ends (p : Problem) (s : State) :
    ∃ t, ReflTransGen (Step p) s t ∧ Ends p t (run p s).1 (run p s).2 := by
  induction s using (wellFounded_step p).induction with
  | _ s ih =>
    cases hf : s.frontier with
    | nil =>
      rw [run_of_empty hf]
      exact ⟨s, .refl, .drained hf⟩
    | cons c rest =>
      by_cases hgoal : c.vertex = p.goal
      · rw [run_of_goal hf hgoal]
        exact ⟨s, .refl, .reached hf hgoal⟩
      · rw [run_of_other hf hgoal]
        obtain ⟨t, hsteps, hends⟩ := ih _ (.expand hf hgoal)
        exact ⟨t, .head (.expand hf hgoal) hsteps, hends⟩

/-- What each round keeps, any number of rounds keeps. -/
theorem kept_of_rounds (Inv : State → Prop) (hstep : ∀ s t, Inv s → Step p s t → Inv t)
    (h : Inv s) (hrounds : ReflTransGen (Step p) s t) : Inv t := by
  induction hrounds with
  | refl => exact h
  | tail _ hlast ih => exact hstep _ _ ih hlast

/-! ### Going along the edges of a vertex -/

theorem State.costOf_eq {v : Vertex} {k : Nat} (h : s.arrivals.Reaches v k) : s.costOf v = k := by
  obtain ⟨_, h⟩ := h
  simp [State.costOf, h]

/-- The priority with which a vertex waits on the frontier when it has been reached at the cost
`k`. -/
def Problem.priority (p : Problem) (v : Vertex) (k : Nat) : Binary64 :=
  if v = p.start then .ofNat 0 else .ofNat k + p.remaining v

/-- The candidate with which a vertex that has been reached at the cost `k` is put on the
frontier. -/
def Problem.candidate (p : Problem) (v : Vertex) (k : Nat) : Candidate :=
  ⟨v, .ofNat k + p.remaining v⟩

theorem Problem.candidate_eq {v : Vertex} (h : v ≠ p.start) (k : Nat) :
    p.candidate v k = ⟨v, p.priority v k⟩ := by
  rw [candidate, priority, if_neg h]

/-- The start waits at first. -/
theorem Problem.start_mem_initial (p : Problem) (k : Nat) :
    ⟨p.start, p.priority p.start k⟩ ∈ p.initial.frontier := by
  rw [priority, if_pos rfl]
  exact List.mem_singleton.2 rfl

/-- No edge of `v`, which has been reached at the cost `k`, leads anywhere at a lower cost than what
has been reached. -/
def Settled (p : Problem) (r : Arrivals) (v : Vertex) (k : Nat) : Prop :=
  ∀ e ∈ p.network.edgesOf v, ∃ j ≤ k + e.weight.toNat, r.Reaches e.target j

variable {c : Vertex} {g : Nat}

/-- Going along an edge either changes nothing, since its end has been reached at no more than that
cost, or enters a better arrival. -/
theorem relax_cases (p : Problem) (c : Vertex) (g : Nat) (s : State) (e : Edge) :
    ((∃ j ≤ g + e.weight.toNat, s.arrivals.Reaches e.target j) ∧ relax p c g s e = s) ∨
      (∀ j, s.arrivals.Reaches e.target j → g + e.weight.toNat < j) ∧
        (relax p c g s e).arrivals = s.arrivals.enter e.target (g + e.weight.toNat) c ∧
        (relax p c g s e).frontier =
          s.frontier.insert (p.candidate e.target (g + e.weight.toNat)) := by
  by_cases h : s.arrivals.improves e.target (g + e.weight.toNat) = true
  · refine Or.inr ⟨Arrivals.improves_iff.1 h, ?_⟩
    unfold relax
    rw [if_pos h]
    exact ⟨rfl, rfl⟩
  · refine Or.inl ⟨Arrivals.not_improves_iff.1 h, ?_⟩
    unfold relax
    rw [if_neg h]

/-- What each better arrival along an edge of `c` keeps, going along all edges of `c` keeps. -/
theorem expand_induction (Inv : Arrivals → Frontier → Prop)
    (hstep : ∀ r f, ∀ e ∈ p.network.edgesOf c, Inv r f →
      (∀ j, r.Reaches e.target j → g + e.weight.toNat < j) →
      Inv (r.enter e.target (g + e.weight.toNat) c)
        (f.insert (p.candidate e.target (g + e.weight.toNat))))
    (h : Inv s.arrivals s.frontier) :
    Inv (expand p c g s).arrivals (expand p c g s).frontier := by
  refine List.foldlRecOn (motive := fun t : State ↦ Inv t.arrivals t.frontier) _ _ h ?_
  intro t ht e he
  rcases relax_cases p c g t e with ⟨-, heq⟩ | ⟨hbetter, harrivals, hfrontier⟩
  · rwa [heq]
  · rw [harrivals, hfrontier]
    exact hstep _ _ e he ht hbetter

/-- Going along edges makes no vertex more expensive, and settles each of the edges. -/
theorem exists_le_of_foldl_relax (edges : List Edge) (s : State) :
    (∀ v k, s.arrivals.Reaches v k → ∃ j ≤ k, (edges.foldl (relax p c g) s).arrivals.Reaches v j) ∧
      ∀ e ∈ edges, ∃ j ≤ g + e.weight.toNat,
        (edges.foldl (relax p c g) s).arrivals.Reaches e.target j := by
  induction edges generalizing s with
  | nil => exact ⟨fun v k hv ↦ ⟨k, Nat.le_refl k, hv⟩, fun e he ↦ absurd he List.not_mem_nil⟩
  | cons e edges ih =>
    obtain ⟨hcheaper, hsettled⟩ := ih (relax p c g s e)
    rw [List.foldl_cons]
    have hrelax : (∀ v k, s.arrivals.Reaches v k →
        ∃ j ≤ k, (relax p c g s e).arrivals.Reaches v j) ∧
          ∃ j ≤ g + e.weight.toNat, (relax p c g s e).arrivals.Reaches e.target j := by
      rcases relax_cases p c g s e with ⟨hreach, heq⟩ | ⟨hbetter, harrivals, -⟩
      · rw [heq]
        exact ⟨fun v k hv ↦ ⟨k, Nat.le_refl k, hv⟩, hreach⟩
      · rw [harrivals]
        exact ⟨fun v k hv ↦ hv.enter hbetter,
          _, Nat.le_refl _, Arrivals.reaches_enter_self⟩
    constructor
    · intro v k hv
      obtain ⟨j, hj, hv⟩ := hrelax.1 v k hv
      obtain ⟨i, hi, hv⟩ := hcheaper v j hv
      exact ⟨i, hi.trans hj, hv⟩
    · intro d hd
      rcases List.mem_cons.1 hd with rfl | hd
      · obtain ⟨j, hj, hreach⟩ := hrelax.2
        obtain ⟨i, hi, hreach⟩ := hcheaper _ j hreach
        exact ⟨i, hi.trans hj, hreach⟩
      · exact hsettled d hd

theorem settled_expand (p : Problem) (c : Vertex) (g : Nat) (s : State) :
    Settled p (expand p c g s).arrivals c g :=
  (exists_le_of_foldl_relax (p.network.edgesOf c) s).2

/-- Going along edges that lead nowhere at a lower cost changes nothing. -/
theorem foldl_relax_eq_self {edges : List Edge}
    (h : ∀ e ∈ edges, ∃ j ≤ g + e.weight.toNat, s.arrivals.Reaches e.target j) :
    edges.foldl (relax p c g) s = s := by
  refine List.foldlRecOn (motive := fun t : State ↦ t = s) _ _ rfl ?_
  rintro t rfl e he
  exact if_neg (Arrivals.not_improves_iff.2 (h e he))

/-- Expanding a settled vertex changes nothing. -/
theorem expand_of_settled (h : Settled p s.arrivals c g) :
    (expand p c g s).arrivals = s.arrivals ∧ (expand p c g s).frontier = s.frontier := by
  unfold expand
  rw [foldl_relax_eq_self h]
  exact ⟨rfl, rfl⟩

/-! ### What the frontier is for -/

variable {calls : List Addition} {r : Arrivals} {f : Frontier}

/-- The frontier holds all that is still to be done, except at a vertex whose edges are just being
gone along. -/
structure Covers (calls : List Addition) (p : Problem) (busy : Option Vertex) (r : Arrivals)
    (f : Frontier) : Prop where
  /-- The candidates stand in the order of their priorities. -/
  ascending : f.Ascending
  /-- The priority of a candidate is that of the present cost of its vertex or of a higher one. -/
  entry : ∀ d ∈ f, ∃ k ≤ totalWeight calls,
    d.priority = p.priority d.vertex k ∧ ∃ j ≤ k, r.Reaches d.vertex j
  /-- A vertex that has been reached waits, unless it is not the goal and is settled. -/
  waiting : ∀ v k, r.Reaches v k →
    busy = some v ∨ ⟨v, p.priority v k⟩ ∈ f ∨ v ≠ p.goal ∧ Settled p r v k

/-- What holds while the edges of `c`, which has been reached at the cost `g`, are gone along. -/
structure Underway (calls : List Addition) (p : Problem) (c : Vertex) (g : Nat) (r : Arrivals)
    (f : Frontier) : Prop where
  /-- The record leads back to the start. -/
  rooted : Rooted calls p.start r
  /-- The frontier holds all that is still to be done elsewhere. -/
  covers : Covers calls p (some c) r f
  /-- The cost of the vertex is not lowered meanwhile. -/
  current : r.Reaches c g

/-- What holds before and after each round. -/
structure Sound (calls : List Addition) (p : Problem) (s : State) : Prop where
  /-- The record leads back to the start. -/
  rooted : Rooted calls p.start s.arrivals
  /-- The frontier holds all that is still to be done. -/
  covers : Covers calls p none s.arrivals s.frontier

theorem Settled.enter {v x : Vertex} {j k : Nat} (h : Settled p r v k)
    (hbetter : ∀ i, r.Reaches x i → j < i) : Settled p (r.enter x j c) v k := by
  intro e he
  obtain ⟨i, hi, hreach⟩ := h e he
  obtain ⟨i', hi', hreach⟩ := hreach.enter hbetter
  exact ⟨i', hi'.trans hi, hreach⟩

/-- **A better arrival along an edge of `c`** is put on the frontier, and what else waits goes on
waiting. -/
theorem Underway.enter (h : Underway calls p c g r f) {x : Vertex} {w : UInt32}
    (hedge : Joined calls c x w) (hbetter : ∀ j, r.Reaches x j → g + w.toNat < j) :
    Underway calls p c g (r.enter x (g + w.toNat) c)
      (f.insert (p.candidate x (g + w.toNat))) := by
  have hrooted := h.rooted.enter h.current hedge hbetter
  have hx : (r.enter x (g + w.toNat) c).Reaches x (g + w.toNat) := Arrivals.reaches_enter_self
  rw [Problem.candidate_eq (h.rooted.ne_start_of_better hbetter)]
  have hcx : c ≠ x := by
    rintro rfl
    have := hbetter g h.current
    omega
  refine ⟨hrooted, ⟨h.covers.ascending.insert _, ?_, ?_⟩,
    Arrivals.reaches_enter.2 (Or.inr ⟨hcx, h.current⟩)⟩
  · intro d hd
    rcases Frontier.mem_insert.1 hd with rfl | hd
    · exact ⟨_, hrooted.le_totalWeight hx, rfl, _, Nat.le_refl _, hx⟩
    · obtain ⟨k, hk, hd, j, hj, hreach⟩ := h.covers.entry d hd
      obtain ⟨i, hi, hreach⟩ := hreach.enter hbetter
      exact ⟨k, hk, hd, i, hi.trans hj, hreach⟩
  · intro v k hv
    rcases Arrivals.reaches_enter.1 hv with ⟨rfl, rfl⟩ | ⟨-, hv⟩
    · exact Or.inr (Or.inl (Frontier.mem_insert.2 (Or.inl rfl)))
    · rcases h.covers.waiting v k hv with hbusy | hmem | ⟨hgoal, hsettled⟩
      · exact Or.inl hbusy
      · exact Or.inr (Or.inl (Frontier.mem_insert.2 (Or.inr hmem)))
      · exact Or.inr (Or.inr ⟨hgoal, hsettled.enter hbetter⟩)

theorem Underway.relax (hp : p.network = .declared calls) {e : Edge}
    (he : e ∈ p.network.edgesOf c) (h : Underway calls p c g s.arrivals s.frontier) :
    Underway calls p c g (relax p c g s e).arrivals (relax p c g s e).frontier := by
  rcases relax_cases p c g s e with ⟨-, heq⟩ | ⟨hbetter, harrivals, hfrontier⟩
  · rwa [heq]
  · rw [harrivals, hfrontier]
    rw [hp] at he
    exact h.enter (Network.mem_edgesOf_declared.1 he) hbetter

/-- After its edges have been gone along the vertex is settled, and no longer exempt. -/
theorem Underway.settle (h : Underway calls p c g r f) (hgoal : c ≠ p.goal)
    (hsettled : Settled p r c g) : Covers calls p none r f := by
  refine ⟨h.covers.ascending, h.covers.entry, fun v k hv ↦ Or.inr ?_⟩
  rcases h.covers.waiting v k hv with hbusy | hwaiting
  · obtain rfl := Option.some.inj hbusy
    obtain rfl := h.current.unique hv
    exact Or.inr ⟨hgoal, hsettled⟩
  · exact hwaiting

namespace Sound

variable {d : Candidate} {rest : Frontier}

/-- The first candidate has been reached. -/
theorem reaches_first (h : Sound calls p s) (first : s.frontier = d :: rest) :
    s.arrivals.Reaches d.vertex (s.costOf d.vertex) := by
  obtain ⟨_, -, -, _, -, hreach⟩ := h.covers.entry d (first ▸ List.mem_cons_self)
  rwa [State.costOf_eq hreach]

/-- A vertex whose candidate is taken from the frontier is exempt from waiting. -/
theorem underway (h : Sound calls p s) (first : s.frontier = d :: rest) :
    Underway calls p d.vertex (s.costOf d.vertex) s.arrivals rest := by
  have hcurrent := h.reaches_first first
  obtain ⟨hrooted, hascending, hentry, hwaiting⟩ := h
  rw [first] at hascending hentry hwaiting
  refine ⟨hrooted, ⟨(List.pairwise_cons.1 hascending).2, fun e he ↦ ?_, fun v k hv ↦ ?_⟩, hcurrent⟩
  · exact hentry e (List.mem_cons_of_mem d he)
  · rcases hwaiting v k hv with hbusy | hmem | hsettled
    · cases hbusy
    · rcases List.mem_cons.1 hmem with heq | hmem
      · exact Or.inl (by rw [← heq])
      · exact Or.inr (Or.inl hmem)
    · exact Or.inr (Or.inr hsettled)

theorem initial (calls : List Addition) (p : Problem) : Sound calls p p.initial := by
  have hrooted : Rooted calls p.start p.initial.arrivals := Arrivals.rooted_singleton calls p.start
  refine ⟨hrooted, List.pairwise_singleton _ _, ?_, ?_⟩
  · intro d hd
    obtain rfl := List.mem_singleton.1 hd
    exact ⟨0, Nat.zero_le _, (if_pos rfl).symm, 0, Nat.le_refl 0, hrooted.reaches_start⟩
  · intro v k hv
    obtain ⟨rfl, -⟩ := Arrivals.eq_start_of_reaches hv
    exact Or.inr (Or.inl (p.start_mem_initial k))

/-- **Each round keeps what holds of a search.** -/
theorem step (hp : p.network = .declared calls) (h : Sound calls p s) (hstep : Step p s t) :
    Sound calls p t := by
  obtain ⟨c, rest, first, other, rfl⟩ := hstep.exists_first
  have hunderway : Underway calls p c.vertex (s.costOf c.vertex)
      (expand p c.vertex (s.costOf c.vertex) (take c rest s)).arrivals
      (expand p c.vertex (s.costOf c.vertex) (take c rest s)).frontier := by
    refine expand_induction (Underway calls p _ _) (fun r f e he hunderway hbetter ↦ ?_)
      (h.underway first)
    rw [hp] at he
    exact hunderway.enter (Network.mem_edgesOf_declared.1 he) hbetter
  exact ⟨hunderway.rooted, hunderway.settle other (settled_expand p _ _ _)⟩

/-- **It holds after any number of rounds.** -/
theorem of_rounds (hp : p.network = .declared calls)
    (hrounds : ReflTransGen (Step p) p.initial t) : Sound calls p t :=
  kept_of_rounds (Sound calls p) (fun _ _ h hstep ↦ h.step hp hstep) (initial calls p) hrounds

/-- The way back from a vertex that has been reached is a trail from the start. -/
theorem exists_trail (h : Sound calls p s) {v : Vertex} {k : Nat} (hv : s.arrivals.Reaches v k) :
    ∃ path, Trail p.start s.arrivals v path :=
  Trail.of_before (h.rooted.home v k hv)

end Sound

/-! ### What a search returns -/

/-- The problem of finding a path in the network of the calls. -/
abbrev Problem.declared (calls : List Addition) (start goal : Vertex) (h : Heuristic)
    (estimate : Estimate := fun a b ↦ h.estimate a b) : Problem :=
  ⟨.declared calls, start, goal, h, estimate⟩

/-- A search comes to an end, and what each round keeps holds there. -/
theorem exists_sound_end (hp : p.network = .declared calls) :
    ∃ s, ReflTransGen (Step p) p.initial s ∧ Sound calls p s ∧
      Ends p s (run p p.initial).1 (run p p.initial).2 := by
  obtain ⟨s, hrounds, hends⟩ := exists_ends p p.initial
  exact ⟨s, hrounds, Sound.of_rounds hp hrounds, hends⟩

/-- The outcome of a search that ends in the state `s`: neither a cost nor a path, since nothing is
left to be done, or the cost of the goal, which is the first candidate, and the trail to it. -/
theorem Sound.outcome_of_ends {start goal : Vertex} {h : Heuristic} {estimate : Estimate}
    (hp : p = .declared calls start goal h estimate) (hsound : Sound calls p s)
    (hends : Ends p s (run p p.initial).1 (run p p.initial).2) :
    (shortestPath (.declared calls) start goal h estimate).outcome.cost = none ∧
        (shortestPath (.declared calls) start goal h estimate).outcome.path = none ∧
        s.frontier = [] ∨
      ∃ c rest path, s.frontier = c :: rest ∧ c.vertex = goal ∧
        (shortestPath (.declared calls) start goal h estimate).outcome.cost =
          some (s.costOf goal) ∧
        (shortestPath (.declared calls) start goal h estimate).outcome.path = some path ∧
        Trail start s.arrivals goal path := by
  subst hp
  obtain ⟨result, hresult⟩ : ∃ result,
      run (.declared calls start goal h estimate)
        (Problem.declared calls start goal h estimate).initial = result := ⟨_, rfl⟩
  have hcost : (shortestPath (.declared calls) start goal h estimate).outcome.cost = result.1 :=
    hresult ▸ rfl
  have hpath : (shortestPath (.declared calls) start goal h estimate).outcome.path =
      result.1.map fun _ ↦ pathTo start result.2.arrivals goal [] := hresult ▸ rfl
  rw [hresult] at hends
  rw [hcost, hpath]
  obtain ⟨cost, last⟩ := result
  cases hends with
  | drained empty => exact Or.inl ⟨rfl, rfl, empty⟩
  | @reached c rest first hc =>
    obtain rfl : c.vertex = goal := hc
    obtain ⟨path, htrail⟩ := hsound.exists_trail (hsound.reaches_first first)
    refine Or.inr ⟨c, rest, path, first, rfl, rfl, ?_, htrail⟩
    show some (pathTo start s.arrivals c.vertex []) = some path
    rw [htrail.pathTo_eq, List.append_nil]

end Exploration

end GraphSearch.Route
