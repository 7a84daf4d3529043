import GraphSearch.Route.Network
import GraphSearch.Sum

/-!
# Costs that have been reached, and why they cannot improve for ever

A search for a path keeps for each vertex that it has reached the lowest cost at which it got there
and the vertex from which it came. The record changes only for the better: a vertex is reached for
the first time, or at a lower cost than before. Over a fixed list of vertices neither can go on for
ever. The number of those not reached yet falls in the first case; in the second it stays as it is,
and the sum of the costs falls. `progress_insert` puts the two together, and `Progress.trans`
carries it along a sequence of changes.
-/

namespace GraphSearch.Route

open Std (HashMap)

/-- How a vertex was reached. -/
structure Arrival where
  /-- What it cost. -/
  cost : Nat
  /-- The vertex before it, if it is not the start. -/
  via : Option Vertex
deriving DecidableEq, Repr

/-- The vertices that have been reached, each with its best arrival so far. -/
abbrev Arrivals := HashMap Vertex Arrival

namespace Arrivals

/-- Whether the record lacks `v`, or has it at a higher cost. -/
def improves (r : Arrivals) (v : Vertex) (cost : Nat) : Bool :=
  match r[v]? with
  | none => true
  | some known => cost < known.cost

/-- The number of entries of the list that have not been reached. -/
def unseen (targets : List Vertex) (r : Arrivals) : Nat := targets.countP fun v ↦ !r.contains v

/-- The sum of the costs at which the entries of the list have been reached. -/
def total (targets : List Vertex) (r : Arrivals) : Nat :=
  sumOf (fun v ↦ (r[v]?.map Arrival.cost).getD 0) targets

/-- The record `r` is better than `r'` on the list: it has more of it, or as much at a lower sum of
the costs. -/
def Progress (targets : List Vertex) (r r' : Arrivals) : Prop :=
  r.unseen targets < r'.unseen targets ∨
    (r.unseen targets = r'.unseen targets ∧ r.total targets < r'.total targets)

theorem Progress.trans {targets : List Vertex} {r₁ r₂ r₃ : Arrivals} (h : Progress targets r₁ r₂)
    (h' : Progress targets r₂ r₃) : Progress targets r₁ r₃ := by
  unfold Progress at *
  omega

end Arrivals

/-! ### Counts that fall at one entry -/

theorem countP_lt_countP {α : Type} {p q : α → Bool} {l : List α} {a : α}
    (h : ∀ x ∈ l, p x = true → q x = true) (ha : a ∈ l) (hp : p a = false) (hq : q a = true) :
    l.countP p < l.countP q := by
  induction l with
  | nil => exact absurd ha List.not_mem_nil
  | cons b l ih =>
    have hl : ∀ x ∈ l, p x = true → q x = true := fun x hx ↦ h x (List.mem_cons_of_mem _ hx)
    rw [List.countP_cons, List.countP_cons]
    rcases List.mem_cons.1 ha with rfl | hal
    · rw [hp, hq]
      exact Nat.lt_succ_of_le (List.countP_mono_left hl)
    · have hb := h b (List.mem_cons_self ..)
      have hle : (if p b = true then 1 else 0) ≤ if q b = true then 1 else 0 := by grind
      exact Nat.add_lt_add_of_lt_of_le (ih hl hal) hle

namespace Arrivals

/-- Entering a better arrival of a listed vertex is progress. -/
theorem progress_insert {targets : List Vertex} {r : Arrivals} {v : Vertex} {a : Arrival}
    (hv : v ∈ targets) (h : r.improves v a.cost = true) : Progress targets (r.insert v a) r := by
  unfold improves at h
  cases hr : r[v]? with
  | none =>
    left
    have hc : r.contains v = false := by
      rw [HashMap.contains_eq_isSome_getElem?, hr]
      rfl
    refine countP_lt_countP (a := v) (fun x _ hx ↦ ?_) hv (by simp) (by simp [hc])
    rw [HashMap.contains_insert] at hx
    simp_all
  | some known =>
    right
    have hlt : a.cost < known.cost := by simpa [hr] using h
    constructor
    · refine List.countP_congr fun x _ ↦ ?_
      rw [HashMap.contains_insert]
      by_cases hx : v = x
      · subst hx
        simp [HashMap.contains_eq_isSome_getElem?, hr]
      · simp [hx]
    · refine sumOf_lt_sumOf (a := v) (fun x _ ↦ ?_) hv (by simp [hr, hlt])
      rw [HashMap.getElem?_insert]
      by_cases hx : v = x
      · subst hx
        simp [hr, Nat.le_of_lt hlt]
      · simp [hx]

end Arrivals

end GraphSearch.Route
