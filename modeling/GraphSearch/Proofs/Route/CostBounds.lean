import GraphSearch.Proofs.Route.Moments
import GraphSearch.Proofs.Route.RecordedNetwork
import Mathlib.Data.FinEnum
import Mathlib.Data.Finset.Card

/-!
# How large costs become

The cost at which a vertex has been reached is the weight of a path without repetition, however
often the search has gone back to vertices before. Such a path has at most as many vertices as there
are, and each of its edges weighs less than `2 ^ 32` (`SimplePath.add_le_length_mul`). Since
vertices are numbers of 32 bits, no cost that a search works out needs more than 64 bits
(`shortestPath_cost_bounds`). The estimates have no part in this.
-/

namespace GraphSearch.Route

variable {calls : List Addition} {start u v : Vertex} {w : UInt32} {path : List Vertex} {k : Nat}

/-! ### How long a path is -/

namespace SimplePath

theorem nodup (h : SimplePath calls start v path k) : path.Nodup := by
  induction h with
  | refl => exact List.nodup_singleton _
  | tail _ _ fresh ih => exact List.nodup_cons.2 ⟨fresh, ih⟩

/-- There is one vertex more than edges, and each edge weighs less than `2 ^ 32`. -/
theorem add_le_length_mul (h : SimplePath calls start v path k) :
    k + (2 ^ 32 - 1) ≤ path.length * (2 ^ 32 - 1) := by
  induction h with
  | refl => simp
  | @tail u v path w k _ _ _ ih =>
    have hw := w.toNat_lt
    rw [List.length_cons, Nat.succ_mul]
    omega

end SimplePath

namespace Exploration

open Relation (ReflTransGen)

variable {p : Problem}

/-- The vertices of the network together with the start. -/
def Problem.vertices (p : Problem) : Finset Vertex := insert p.start p.network.rows.keys.toFinset

theorem Problem.mem_vertices : v ∈ p.vertices ↔ v = p.start ∨ p.network.contains v = true := by
  rw [vertices, Finset.mem_insert, List.mem_toFinset, Std.HashMap.mem_keys, Network.contains,
    ← Std.HashMap.mem_iff_contains]

theorem Problem.card_vertices_le (p : Problem) : p.vertices.card ≤ 2 ^ 32 := by
  have hcard : Fintype.card Vertex = 2 ^ 32 :=
    FinEnum.card_eq_fintypeCard.symm.trans FinEnum.card_Int32
  exact hcard ▸ Finset.card_le_univ p.vertices

/-- No path on which each vertex stands once weighs more. -/
def Problem.maxCost (p : Problem) : Nat := (p.vertices.card - 1) * (2 ^ 32 - 1)

theorem mem_vertices_of_simplePath (hp : p.network = .declared calls)
    (h : SimplePath calls p.start v path k) : ∀ x ∈ path, x ∈ p.vertices := by
  induction h with
  | refl =>
    intro x hx
    exact Problem.mem_vertices.2 (Or.inl (List.mem_singleton.1 hx))
  | tail _ edge _ ih =>
    intro x hx
    rcases List.mem_cons.1 hx with rfl | hx
    · exact Problem.mem_vertices.2 (Or.inr (hp ▸ Network.contains_of_joined edge))
    · exact ih x hx

/-- **A path without repetition weighs at most `2 ^ 32 - 1` for each vertex but one.** -/
theorem weight_le_maxCost (hp : p.network = .declared calls)
    (h : SimplePath calls p.start v path k) : k ≤ p.maxCost := by
  have hlength : path.length ≤ p.vertices.card := by
    rw [← List.toFinset_card_of_nodup h.nodup]
    refine Finset.card_le_card fun x hx ↦ ?_
    exact mem_vertices_of_simplePath hp h x (List.mem_toFinset.1 hx)
  have hweight := h.add_le_length_mul
  have hmul := Nat.mul_le_mul_right (2 ^ 32 - 1) hlength
  rw [Problem.maxCost, Nat.sub_mul, Nat.one_mul]
  omega

/-- A cost and the weight of an edge add up to less than `2 ^ 64`. -/
theorem add_lt_of_le_maxCost (h : k ≤ p.maxCost) (w : UInt32) : k + w.toNat < 2 ^ 64 := by
  have hw := w.toNat_lt
  have hmax : p.maxCost ≤ (2 ^ 32 - 1) * (2 ^ 32 - 1) :=
    Nat.mul_le_mul_right _ (Nat.sub_le_sub_right p.card_vertices_le 1)
  omega

/-- The sum is the same in arithmetic of 64 bits. -/
theorem toNat_add_toUInt64 (h : k + w.toNat < 2 ^ 64) :
    (UInt64.ofNat k + w.toUInt64).toNat = k + w.toNat := by
  rw [UInt64.toNat_add, UInt64.toNat_ofNat', UInt32.toNat_toUInt64]
  omega

variable {m : Moment}

/-- At each moment no recorded cost exceeds the largest weight of a path. -/
theorem Moment.Sound.le_maxCost (hp : p.network = .declared calls) (h : m.Sound calls p)
    (hv : m.state.arrivals.Reaches v k) : k ≤ p.maxCost := by
  obtain ⟨path, hpath, -⟩ := h.rooted.path v k hv
  exact weight_le_maxCost hp hpath

/-- **No cost needs more than 64 bits**, whatever the search is named for and whatever the estimates
are. There are at most `2 ^ 32` vertices, the start included. The search is a sequence of ticks, and
at each moment every recorded cost is at most `2 ^ 32 - 1` for each vertex but one; the cost of
going along the next edge, which is worked out then, is below `2 ^ 64` and the same in arithmetic of
64 bits. -/
theorem shortestPath_cost_bounds (calls : List Addition) (start goal : Vertex) (h : Heuristic)
    (estimate : Estimate) :
    (Problem.declared calls start goal h estimate).vertices.card ≤ 2 ^ 32 ∧
      (∃ s, ReflTransGen (Tick (.declared calls start goal h estimate))
          (.between (Problem.declared calls start goal h estimate).initial) (.between s) ∧
        Ends (.declared calls start goal h estimate) s
          (run (.declared calls start goal h estimate)
            (Problem.declared calls start goal h estimate).initial).1
          (run (.declared calls start goal h estimate)
            (Problem.declared calls start goal h estimate).initial).2) ∧
      ∀ m, ReflTransGen (Tick (.declared calls start goal h estimate))
          (.between (Problem.declared calls start goal h estimate).initial) m →
        (∀ v k, m.state.arrivals.Reaches v k →
          k ≤ ((Problem.declared calls start goal h estimate).vertices.card - 1) *
            (2 ^ 32 - 1)) ∧
        ∀ v g e left s, m = .along v g (e :: left) s →
          g + e.weight.toNat < 2 ^ 64 ∧
            (UInt64.ofNat g + e.weight.toUInt64).toNat = g + e.weight.toNat := by
  refine ⟨Problem.card_vertices_le _, ?_, fun m hticks ↦ ?_⟩
  · obtain ⟨s, hrounds, -, hends⟩ :=
      exists_sound_end (p := .declared calls start goal h estimate) rfl
    exact ⟨s, ticks_of_rounds hrounds, hends⟩
  · have hsound : m.Sound calls (.declared calls start goal h estimate) := .of_ticks rfl hticks
    refine ⟨fun v k hv ↦ hsound.le_maxCost rfl hv, ?_⟩
    rintro v g e left s rfl
    have hcurrent : (Moment.along v g (e :: left) s).state.arrivals.Reaches v g :=
      Underway.current (Halfway.underway hsound)
    have hlt := add_lt_of_le_maxCost (hsound.le_maxCost rfl hcurrent) e.weight
    exact ⟨hlt, toNat_add_toUInt64 hlt⟩

end Exploration

end GraphSearch.Route
