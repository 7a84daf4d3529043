import GraphSearch.Proofs.Route.Rounds

/-!
# The moments of a search

A round is not the least thing that a search does: it goes along the edges of a vertex one after
another, and each of them may change the record. Here a search is cut up further. It is either
between two rounds, or some edges of the vertex whose turn it is are still left (`Moment`), and it
goes from moment to moment by taking a candidate from the frontier, by going along one edge, or by
closing the round (`Tick`). Every round is a sequence of these (`Step.ticks`).

What holds before and after each round extends to the moments within it (`Moment.Sound`): the vertex
is exempt from waiting as long as edges are left, and those that have been gone along lead nowhere
at a lower cost than what has been reached.
-/

namespace GraphSearch.Route

namespace Exploration

open Relation (ReflTransGen)
open Arrivals (Rooted)

/-- Where a search is. -/
inductive Moment where
  /-- No vertex has its turn. -/
  | between (s : State)
  /-- The edges of `v`, which has been reached at the cost `g`, are gone along, and these are
  left. -/
  | along (v : Vertex) (g : Nat) (left : List Edge) (s : State)

/-- What the search has come to at a moment. -/
def Moment.state : Moment → State
  | between s => s
  | along _ _ _ s => s

/-- The least thing that a search does. -/
inductive Tick (p : Problem) : Moment → Moment → Prop where
  /-- The first candidate is taken from the frontier, since it is not the goal. -/
  | take {s : State} {c : Candidate} {rest : Frontier} (first : s.frontier = c :: rest)
      (other : c.vertex ≠ p.goal) :
      Tick p (.between s)
        (.along c.vertex (s.costOf c.vertex) (p.network.edgesOf c.vertex) (take c rest s))
  /-- The next edge is gone along. -/
  | relax {v : Vertex} {g : Nat} {e : Edge} {left : List Edge} {s : State} :
      Tick p (.along v g (e :: left) s) (.along v g left (relax p v g s e))
  /-- No edge is left, and the size of the frontier is noted. -/
  | close {v : Vertex} {g : Nat} {s : State} :
      Tick p (.along v g [] s) (.between { s with widest := max s.widest s.frontier.length })

variable {p : Problem} {s t : State} {m m' : Moment} {v : Vertex} {g k : Nat}

theorem ticks_along (p : Problem) (v : Vertex) (g : Nat) (edges : List Edge) (s : State) :
    ReflTransGen (Tick p) (.along v g edges s)
      (.along v g [] (edges.foldl (relax p v g) s)) := by
  induction edges generalizing s with
  | nil => exact .refl
  | cons e edges ih => exact .head .relax (ih _)

/-- **A round is a sequence of ticks.** -/
theorem Step.ticks (h : Step p s t) : ReflTransGen (Tick p) (.between s) (.between t) := by
  obtain ⟨_, _, first, other, rfl⟩ := h.exists_first
  exact .head (.take first other) ((ticks_along p _ _ _ _).tail .close)

theorem ticks_of_rounds (h : ReflTransGen (Step p) s t) :
    ReflTransGen (Tick p) (.between s) (.between t) :=
  h.lift' Moment.between fun _ _ hstep ↦ hstep.ticks

variable {calls : List Addition}

/-- What holds while the edges of `v` are gone along and some of them are left. -/
structure Halfway (calls : List Addition) (p : Problem) (v : Vertex) (g : Nat) (left : List Edge)
    (s : State) : Prop where
  /-- The frontier holds all that is still to be done elsewhere. -/
  underway : Underway calls p v g s.arrivals s.frontier
  /-- The vertex is not the goal. -/
  other : v ≠ p.goal
  /-- The edges that are not left lead nowhere at a lower cost. -/
  gone : ∃ gone, p.network.edgesOf v = gone ++ left ∧
    ∀ e ∈ gone, ∃ j ≤ g + e.weight.toNat, s.arrivals.Reaches e.target j

/-- What holds at a moment of a search. -/
def Moment.Sound (calls : List Addition) (p : Problem) : Moment → Prop
  | between s => Exploration.Sound calls p s
  | along v g left s => Halfway calls p v g left s

theorem Moment.Sound.rooted (h : m.Sound calls p) : Rooted calls p.start m.state.arrivals := by
  cases m with
  | between s => exact Exploration.Sound.rooted h
  | along v g left s => exact h.underway.rooted

variable {e : Edge} {left : List Edge}

theorem Halfway.mem_edgesOf (h : Halfway calls p v g (e :: left) s) :
    e ∈ p.network.edgesOf v := by
  obtain ⟨gone, hedges, -⟩ := h.gone
  rw [hedges]
  exact List.mem_append_right gone List.mem_cons_self

theorem Halfway.relax (hp : p.network = .declared calls) (h : Halfway calls p v g (e :: left) s) :
    Halfway calls p v g left (relax p v g s e) := by
  obtain ⟨gone, hedges, hgone⟩ := h.gone
  refine ⟨h.underway.relax hp h.mem_edgesOf, h.other, gone ++ [e], ?_, fun d hd ↦ ?_⟩
  · rw [hedges, List.append_assoc, List.singleton_append]
  · -- Going along this edge makes nothing more expensive, and settles it.
    obtain ⟨hcheaper, hreach⟩ := exists_le_of_foldl_relax (p := p) (c := v) (g := g) [e] s
    rcases List.mem_append.1 hd with hd | hd
    · obtain ⟨j, hj, hreach⟩ := hgone d hd
      obtain ⟨i, hi, hreach⟩ := hcheaper _ j hreach
      exact ⟨i, hi.trans hj, hreach⟩
    · exact hreach d hd

theorem Halfway.close (h : Halfway calls p v g [] s) :
    Exploration.Sound calls p { s with widest := max s.widest s.frontier.length } := by
  obtain ⟨gone, hedges, hgone⟩ := h.gone
  rw [List.append_nil] at hedges
  exact ⟨h.underway.rooted, h.underway.settle h.other (by rwa [Settled, hedges])⟩

/-- **Each tick keeps what holds of a search.** -/
theorem Moment.Sound.tick (hp : p.network = .declared calls) (h : m.Sound calls p)
    (htick : Tick p m m') : m'.Sound calls p := by
  cases htick with
  | take first other =>
    have hs : Exploration.Sound calls p _ := h
    exact ⟨hs.underway first, other, [], rfl, fun _ he ↦ absurd he List.not_mem_nil⟩
  | relax => exact Halfway.relax hp h
  | close => exact Halfway.close h

/-- **It holds at each moment that a search comes to.** -/
theorem Moment.Sound.of_ticks (hp : p.network = .declared calls)
    (hticks : ReflTransGen (Tick p) (.between p.initial) m) : m.Sound calls p := by
  induction hticks with
  | refl => exact Exploration.Sound.initial calls p
  | tail _ hlast ih => exact ih.tick hp hlast

/-- A tick leaves the record as it is, or enters a better arrival along the next edge. -/
theorem Tick.arrivals_cases (h : Tick p m m') :
    m'.state.arrivals = m.state.arrivals ∨
      ∃ v g e left s, m = .along v g (e :: left) s ∧
        (∀ j, m.state.arrivals.Reaches e.target j → g + e.weight.toNat < j) ∧
        m'.state.arrivals = m.state.arrivals.enter e.target (g + e.weight.toNat) v := by
  cases h with
  | take first other => exact Or.inl rfl
  | @relax v g e left s =>
    rcases relax_cases p v g s e with ⟨-, heq⟩ | ⟨hbetter, harrivals, -⟩
    · exact Or.inl (congrArg State.arrivals heq)
    · exact Or.inr ⟨v, g, e, left, s, rfl, hbetter, harrivals⟩
  | close => exact Or.inl rfl

end Exploration

end GraphSearch.Route
