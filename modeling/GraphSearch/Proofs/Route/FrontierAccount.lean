import GraphSearch.Proofs.Route.Moments
import Mathlib.Order.Bounds.Defs

/-!
# What is put on the frontier and taken from it

A search counts the candidates that it takes from the frontier and those that it puts there, the
start apart. At each moment what has been taken and what is left make up what has been put there
(`State.Balanced.of_ticks`), whether a candidate is outdated or not.

The size of the frontier is noted only when a round is closed. Nothing larger goes unnoticed: a
round takes one candidate, and from then on the frontier does not shrink until the round is closed.
So the larger of what has been noted and what is there at the moment (`Moment.peak`) never falls,
and when no round is under way it has been noted. Since a search can go on in one way only
(`Tick.rightUnique`), each of its moments leads to its end, where all that was there before has been
noted (`shortestPath_frontier_account`).
-/

namespace GraphSearch.Route

namespace Exploration

open Relation (ReflTransGen)

variable {p : Problem} {s t : State} {m m' : Moment} {c : Candidate} {rest : Frontier}

/-! ### What has been taken, what is left and what has been put there -/

/-- What has been taken from the frontier and what is left there make up what has been put there. -/
def State.Balanced (s : State) : Prop :=
  s.expansions.size + s.frontier.length = s.pushes + 1

theorem State.Balanced.take (h : s.Balanced) (first : s.frontier = c :: rest) :
    (take c rest s).Balanced := by
  have hlength : s.frontier.length = rest.length + 1 := congrArg List.length first
  unfold State.Balanced at h ⊢
  show (s.expansions.push _).size + rest.length = s.pushes + 1
  rw [Array.size_push]
  omega

/-- Going along an edge changes no count, or counts one more candidate and puts it on the
frontier. -/
theorem relax_eq_or_longer (p : Problem) (v : Vertex) (g : Nat) (s : State) (e : Edge) :
    relax p v g s e = s ∨
      (relax p v g s e).expansions = s.expansions ∧
        (relax p v g s e).pushes = s.pushes + 1 ∧
        (relax p v g s e).widest = s.widest ∧
        (relax p v g s e).frontier.length = s.frontier.length + 1 := by
  by_cases h : s.arrivals.improves e.target (g + e.weight.toNat) = true
  · right
    unfold relax
    rw [if_pos h]
    exact ⟨rfl, rfl, rfl, Frontier.length_insert _ _⟩
  · exact Or.inl (if_neg h)

/-- **Each tick keeps the balance.** -/
theorem State.Balanced.tick (h : m.state.Balanced) (htick : Tick p m m') : m'.state.Balanced := by
  cases htick with
  | take first other => exact h.take first
  | @relax v g e left s =>
    rcases relax_eq_or_longer p v g s e with heq | ⟨hexpansions, hpushes, -, hfrontier⟩
    · show (relax p v g s e).Balanced
      rwa [heq]
    · show (relax p v g s e).expansions.size + (relax p v g s e).frontier.length =
        (relax p v g s e).pushes + 1
      have h : s.expansions.size + s.frontier.length = s.pushes + 1 := h
      rw [hexpansions, hpushes, hfrontier]
      omega
  | close => exact h

/-- **The balance holds at each moment that a search comes to.** -/
theorem State.Balanced.of_ticks (hticks : ReflTransGen (Tick p) (.between p.initial) m) :
    m.state.Balanced := by
  induction hticks with
  | refl => rfl
  | tail _ hlast ih => exact ih.tick hlast

/-! ### A search can go on in one way only -/

theorem Tick.rightUnique (p : Problem) : Relator.RightUnique (Tick p) := by
  intro m m₁ m₂ h₁ h₂
  cases h₁ with
  | take first other =>
    cases h₂ with
    | take first' other' =>
      obtain ⟨rfl, rfl⟩ := List.cons.inj (first.symm.trans first')
      rfl
  | relax =>
    cases h₂ with
    | relax => rfl
  | close =>
    cases h₂ with
    | close => rfl

/-- Where a search ends it does not go on. -/
theorem Ends.not_tick {cost : Option Nat} (h : Ends p s cost t) : ¬Tick p (.between s) m := by
  rintro ⟨first, other⟩
  cases h with
  | drained empty => exact absurd (empty.symm.trans first) (List.cons_ne_nil _ _).symm
  | reached first' goal =>
    obtain ⟨rfl, rfl⟩ := List.cons.inj (first'.symm.trans first)
    exact other goal

/-- **Each moment of a search leads to its end.** -/
theorem Ends.ticks_of_ticks {cost : Option Nat} (h : Ends p s cost t)
    (hend : ReflTransGen (Tick p) m' (.between s)) (hticks : ReflTransGen (Tick p) m' m) :
    ReflTransGen (Tick p) m (.between s) := by
  rcases ReflTransGen.total_of_right_unique (Tick.rightUnique p) hticks hend with hlead | hlead
  · exact hlead
  · rcases hlead.cases_head with heq | ⟨_, htick, -⟩
    · rw [heq]
    · exact absurd htick h.not_tick

/-! ### The largest size -/

/-- The larger of the size that has been noted and the size at the moment. -/
def Moment.peak (m : Moment) : Nat := max m.state.widest m.state.frontier.length

/-- Between two rounds the size of the frontier has been noted. -/
def Moment.Noted : Moment → Prop
  | between s => s.frontier.length ≤ s.widest
  | along _ _ _ _ => True

theorem Moment.Noted.tick (htick : Tick p m m') : m'.Noted := by
  cases htick with
  | take first other => trivial
  | relax => trivial
  | close => exact Nat.le_max_right _ _

theorem Moment.Noted.of_ticks (hticks : ReflTransGen (Tick p) (.between p.initial) m) :
    m.Noted := by
  induction hticks with
  | refl => exact Nat.le_refl 1
  | tail _ hlast _ => exact .tick hlast

/-- **The peak never falls**: what a round takes had been noted before it. -/
theorem Moment.peak_le_of_tick (h : Tick p m m') (hnoted : m.Noted) : m.peak ≤ m'.peak := by
  cases h with
  | @take s c rest first other =>
    show max s.widest s.frontier.length ≤ max s.widest rest.length
    rw [Nat.max_eq_left hnoted]
    exact Nat.le_max_left _ _
  | @relax v g e left s =>
    show max s.widest s.frontier.length ≤
      max (relax p v g s e).widest (relax p v g s e).frontier.length
    rcases relax_eq_or_longer p v g s e with heq | ⟨-, -, hwidest, hfrontier⟩
    · rw [heq]
    · rw [hwidest, hfrontier]
      omega
  | @close v g s => exact Nat.le_max_left _ _

theorem Moment.peak_le_of_ticks (hm : m.Noted) (hticks : ReflTransGen (Tick p) m m') :
    m.peak ≤ m'.peak := by
  suffices h : m'.Noted ∧ m.peak ≤ m'.peak from h.2
  induction hticks with
  | refl => exact ⟨hm, Nat.le_refl _⟩
  | tail _ hlast ih => exact ⟨.tick hlast, ih.2.trans (Moment.peak_le_of_tick hlast ih.1)⟩

/-- What has been noted was the size of the frontier at some moment. -/
theorem exists_widest (hticks : ReflTransGen (Tick p) (.between p.initial) m) :
    ∃ m₀, ReflTransGen (Tick p) (.between p.initial) m₀ ∧
      m₀.state.frontier.length = m.state.widest := by
  induction hticks with
  | refl => exact ⟨_, .refl, rfl⟩
  | tail hticks hlast ih =>
    cases hlast with
    | take first other => exact ih
    | @relax v g e left s =>
      have hwidest : (relax p v g s e).widest = s.widest := by
        rcases relax_eq_or_longer p v g s e with heq | ⟨-, -, hwidest, -⟩
        · rw [heq]
        · exact hwidest
      obtain ⟨m₀, hm₀, hlength⟩ := ih
      exact ⟨m₀, hm₀, hlength.trans hwidest.symm⟩
    | @close v g s =>
      show ∃ m₀, _ ∧ _ = max s.widest s.frontier.length
      rcases Nat.le_total s.frontier.length s.widest with hle | hle
      · rw [Nat.max_eq_left hle]
        exact ih
      · rw [Nat.max_eq_right hle]
        exact ⟨_, hticks, rfl⟩

/-- How many candidates the frontier of a search holds: at each of its moments, and when it has
ended. -/
def Problem.frontierSizes (p : Problem) : Set Nat :=
  {k | (∃ m, ReflTransGen (Tick p) (.between p.initial) m ∧ m.state.frontier.length = k) ∨
    (run p p.initial).2.frontier.length = k}

/-- The largest of these sizes is the one that is noted in the end. -/
theorem isGreatest_frontierSizes {cost : Option Nat}
    (hticks : ReflTransGen (Tick p) (.between p.initial) (.between s))
    (hends : Ends p s cost (run p p.initial).2) :
    IsGreatest p.frontierSizes (run p p.initial).2.widest := by
  generalize hlast : (run p p.initial).2 = last at hends
  have hnoted : s.frontier.length ≤ s.widest := Moment.Noted.of_ticks hticks
  have hend : last.widest = s.widest ∧ last.frontier.length ≤ s.frontier.length := by
    cases hends with
    | drained empty => exact ⟨rfl, Nat.le_refl _⟩
    | @reached c rest first goal => exact ⟨rfl, first ▸ Nat.le_succ rest.length⟩
  rw [hend.1]
  refine ⟨Or.inl (exists_widest hticks), fun k hk ↦ ?_⟩
  rcases hk with ⟨m, hm, rfl⟩ | rfl
  · calc m.state.frontier.length ≤ m.peak := Nat.le_max_right _ _
      _ ≤ (Moment.between s).peak :=
        Moment.peak_le_of_ticks (.of_ticks hm) (hends.ticks_of_ticks hticks hm)
      _ = s.widest := Nat.max_eq_left hnoted
  · rw [hlast]
    exact hend.2.trans hnoted

/-- The account of a search that comes to `o` and leaves the state `last`. -/
structure Account (p : Problem) (o : Outcome) (last : State) : Prop where
  /-- The search is a sequence of ticks that leads to its end. -/
  ends : ∃ s, ReflTransGen (Tick p) (.between p.initial) (.between s) ∧ Ends p s o.cost last
  /-- What has been taken from the frontier and what is left there make up what has been put there
  and the start. -/
  balance : o.expanded + last.frontier.length = o.pushes + 1
  /-- All that has been put there has been taken exactly if nothing is left. -/
  drained_iff : o.expanded = o.pushes + 1 ↔ last.frontier = []
  /-- Without a path all has been taken. -/
  drained_of_not_found : o.path = none → o.expanded = o.pushes + 1
  /-- The size that is noted in the end is the largest that the frontier has at any moment. -/
  widest : IsGreatest p.frontierSizes o.widest

/-- **The frontier's account is settled at the end of every search**, in any network, whatever the
search is named for and whatever the estimates are. -/
theorem shortestPath_frontier_account (n : Network) (start goal : Vertex) (h : Heuristic)
    (estimate : Estimate) :
    Account ⟨n, start, goal, h, estimate⟩ (shortestPath n start goal h estimate).outcome
      (run ⟨n, start, goal, h, estimate⟩ (Problem.mk n start goal h estimate).initial).2 := by
  obtain ⟨s, hrounds, hends⟩ := exists_ends ⟨n, start, goal, h, estimate⟩
    (Problem.mk n start goal h estimate).initial
  have hticks := ticks_of_rounds hrounds
  have hs : s.Balanced := .of_ticks hticks
  -- The goal may be taken after the last round.
  have hlast : ∀ cost t, Ends ⟨n, start, goal, h, estimate⟩ s cost t →
      t.Balanced ∧ (cost = none → t.frontier = []) := by
    intro cost t hends
    cases hends with
    | drained empty => exact ⟨hs, fun _ ↦ empty⟩
    | reached first goal => exact ⟨hs.take first, fun hcost ↦ absurd hcost (Option.some_ne_none _)⟩
  obtain ⟨hbalanced, hempty⟩ := hlast _ _ hends
  have hdrained : (shortestPath n start goal h estimate).outcome.expanded =
      (shortestPath n start goal h estimate).outcome.pushes + 1 ↔
        (run ⟨n, start, goal, h, estimate⟩
          (Problem.mk n start goal h estimate).initial).2.frontier = [] := by
    rw [← List.length_eq_zero_iff]
    have hbalance : (shortestPath n start goal h estimate).outcome.expanded + _ =
        (shortestPath n start goal h estimate).outcome.pushes + 1 := hbalanced
    omega
  exact ⟨⟨s, hticks, hends⟩, hbalanced, hdrained,
    fun hpath ↦ hdrained.2 (hempty (Option.map_eq_none_iff.1 hpath)),
    isGreatest_frontierSizes hticks hends⟩

end Exploration

end GraphSearch.Route
