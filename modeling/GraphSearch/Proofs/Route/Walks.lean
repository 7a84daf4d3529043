import GraphSearch.Proofs.Route.DeclaredNetwork
import Mathlib.Algebra.Order.Ring.Nat

/-!
# Walks and their weights

What a search for a path is to find is stated here about the calls that declare a network, without
the search. A walk goes along edges, in either direction and any number of times, and its weight is
the sum of theirs (`Walk`); two vertices are connected if there is a walk between them. A path that
is given by its vertices weighs as much as the lightest edges between consecutive ones
(`pathWeight?`), and has no weight if two of them are not joined.

A path that repeats no vertex goes along no edge twice, so it weighs at most as much as all edges
together (`SimplePath.weight_le`).
-/

namespace GraphSearch.Route

variable {calls : List Addition} {u v x : Vertex} {w : UInt32} {j k : Nat}

/-! ### Walks -/

/-- A walk between two vertices along declared edges, with the sum of their weights. -/
inductive Walk (calls : List Addition) : Vertex → Vertex → Nat → Prop where
  /-- The walk that stays where it is. -/
  | refl (v : Vertex) : Walk calls v v 0
  /-- An edge, and a walk from its other end. -/
  | head {u x v : Vertex} {w : UInt32} {k : Nat} (edge : Joined calls u x w)
      (rest : Walk calls x v k) : Walk calls u v (w.toNat + k)

/-- There is a walk between the two vertices. -/
def Connected (calls : List Addition) (u v : Vertex) : Prop := ∃ k, Walk calls u v k

theorem Walk.tail (h : Walk calls u v k) (edge : Joined calls v x w) :
    Walk calls u x (k + w.toNat) := by
  induction h with
  | refl v => exact Nat.zero_add _ ▸ .head edge (.refl x)
  | head first _ ih => exact Nat.add_assoc .. ▸ .head first (ih edge)

/-! ### Paths without repetition -/

/-- A walk from `start` that repeats no vertex, with its vertices, the last one first, and its
weight. -/
inductive SimplePath (calls : List Addition) (start : Vertex) :
    Vertex → List Vertex → Nat → Prop where
  /-- The path that stays where it is. -/
  | refl : SimplePath calls start start [start] 0
  /-- A path, and an edge to a vertex that is not on it. -/
  | tail {u v : Vertex} {path : List Vertex} {w : UInt32} {k : Nat}
      (before : SimplePath calls start u path k) (edge : Joined calls u v w) (fresh : v ∉ path) :
      SimplePath calls start v (v :: path) (k + w.toNat)

namespace SimplePath

variable {start : Vertex} {path : List Vertex}

theorem walk (h : SimplePath calls start v path k) : Walk calls start v k := by
  induction h with
  | refl => exact .refl start
  | tail _ edge _ ih => exact ih.tail edge

theorem last_mem (h : SimplePath calls start v path k) : v ∈ path := by
  cases h with
  | refl => exact List.mem_singleton_self _
  | tail _ _ _ => exact List.mem_cons_self

end SimplePath

/-- The weight of the edge that the call declares, if both of its ends are among those given. -/
def Addition.weightWithin (path : List Vertex) : Addition → Nat
  | vertex _ _ => 0
  | edge u v w => if u ∈ path ∧ v ∈ path then w.toNat else 0

theorem Addition.weightWithin_le (path : List Vertex) (c : Addition) :
    c.weightWithin path ≤ c.weight := by
  cases c with
  | vertex _ _ => exact Nat.le_refl 0
  | edge u v w =>
    show (if _ then _ else _) ≤ w.toNat
    split <;> omega

theorem Addition.weightWithin_le_cons (v : Vertex) (path : List Vertex) (c : Addition) :
    c.weightWithin path ≤ c.weightWithin (v :: path) := by
  cases c with
  | vertex _ _ => exact Nat.le_refl 0
  | edge x y w =>
    simp only [weightWithin, List.mem_cons]
    split
    · rename_i h
      rw [if_pos ⟨Or.inr h.1, Or.inr h.2⟩]
    · exact Nat.zero_le _

/-- The edge that takes a path to a new vertex was not within the path before, and is afterwards. -/
theorem Addition.Joins.weightWithin {c : Addition} {path : List Vertex} (h : c.Joins u v w)
    (hu : u ∈ path) (hv : v ∉ path) :
    c.weightWithin path = 0 ∧ c.weightWithin (v :: path) = w.toNat := by
  rcases h with rfl | rfl <;> simp [Addition.weightWithin, hu, hv]

namespace SimplePath

variable {start : Vertex} {path : List Vertex}

theorem weight_le_within (h : SimplePath calls start v path k) :
    k ≤ sumOf (Addition.weightWithin path) calls := by
  induction h with
  | refl => exact Nat.zero_le _
  | tail before edge fresh ih =>
    obtain ⟨c, hc, hjoins⟩ := edge
    obtain ⟨hbefore, hafter⟩ := hjoins.weightWithin before.last_mem fresh
    refine (Nat.add_le_add_right ih _).trans ?_
    refine sumOf_add_le_sumOf (fun d _ ↦ d.weightWithin_le_cons _ _) hc ?_
    omega

/-- **A path without repetition weighs at most as much as all edges together.** -/
theorem weight_le (h : SimplePath calls start v path k) : k ≤ totalWeight calls :=
  h.weight_le_within.trans (sumOf_le_sumOf fun c _ ↦ c.weightWithin_le path)

end SimplePath

/-! ### The weight of a path that is given by its vertices -/

/-- The weight of the edge that the call declares, if it joins the two vertices. -/
def Addition.weightBetween? (u v : Vertex) (c : Addition) : Option Nat :=
  match c with
  | vertex _ _ => none
  | edge _ _ w => if c.Joins u v w then some w.toNat else none

/-- The smallest weight of an edge between two vertices, if there is any. -/
def lightest? (calls : List Addition) (u v : Vertex) : Option Nat :=
  (calls.filterMap (Addition.weightBetween? u v)).min?

/-- The weight of a path along the lightest edges between consecutive vertices. -/
def pathWeight? (calls : List Addition) : List Vertex → Option Nat
  | u :: v :: rest => do return (← lightest? calls u v) + (← pathWeight? calls (v :: rest))
  | _ => some 0

theorem Addition.weightBetween?_eq_some_iff {c : Addition} :
    c.weightBetween? u v = some k ↔ ∃ w, c.Joins u v w ∧ w.toNat = k := by
  cases c with
  | vertex x place => simp [weightBetween?, Joins]
  | edge x y w =>
    simp only [weightBetween?, Option.ite_none_right_eq_some, Option.some.injEq]
    constructor
    · rintro ⟨hjoins, hk⟩
      exact ⟨w, hjoins, hk⟩
    · rintro ⟨w', hjoins, hk⟩
      have hw : w = w' := by
        rcases hjoins with h | h
        · exact (edge.inj h).2.2
        · exact (edge.inj h).2.2
      subst hw
      exact ⟨hjoins, hk⟩

/-- **The lightest edge between two vertices** is one of them, and none is lighter. -/
theorem lightest?_eq_some_iff :
    lightest? calls u v = some k ↔
      (∃ w, Joined calls u v w ∧ w.toNat = k) ∧ ∀ w, Joined calls u v w → k ≤ w.toNat := by
  have hmem : ∀ j, j ∈ calls.filterMap (Addition.weightBetween? u v) ↔
      ∃ w, Joined calls u v w ∧ w.toNat = j := by
    intro j
    rw [List.mem_filterMap]
    constructor
    · rintro ⟨c, hc, hj⟩
      obtain ⟨w, hjoins, hw⟩ := Addition.weightBetween?_eq_some_iff.1 hj
      exact ⟨w, ⟨c, hc, hjoins⟩, hw⟩
    · rintro ⟨w, ⟨c, hc, hjoins⟩, hw⟩
      exact ⟨c, hc, Addition.weightBetween?_eq_some_iff.2 ⟨w, hjoins, hw⟩⟩
  rw [lightest?, List.min?_eq_some_iff, hmem]
  refine and_congr_right fun _ ↦ ⟨fun hle w hw ↦ hle _ ((hmem _).2 ⟨w, hw, rfl⟩), ?_⟩
  intro hle j hj
  obtain ⟨w, hw, rfl⟩ := (hmem j).1 hj
  exact hle w hw

theorem pathWeight?_cons_cons (u v : Vertex) (rest : List Vertex) :
    pathWeight? calls (u :: v :: rest) =
      do return (← lightest? calls u v) + (← pathWeight? calls (v :: rest)) := by
  rw [pathWeight?]

/-- A path that goes on by one vertex weighs more by the lightest edge to it. -/
theorem pathWeight?_concat {path : List Vertex} (hpath : pathWeight? calls path = some k)
    (hlast : path.getLast? = some u) (hedge : lightest? calls u v = some j) :
    pathWeight? calls (path ++ [v]) = some (k + j) := by
  induction path generalizing k with
  | nil => cases hlast
  | cons x path ih =>
    cases path with
    | nil =>
      obtain rfl : x = u := by simpa using hlast
      obtain rfl : 0 = k := by simpa [pathWeight?] using hpath
      simp [pathWeight?, hedge]
    | cons y path =>
      rw [pathWeight?_cons_cons] at hpath
      obtain ⟨a, ha, hpath⟩ := Option.bind_eq_some_iff.1 hpath
      obtain ⟨b, hb, hpath⟩ := Option.bind_eq_some_iff.1 hpath
      obtain rfl : a + b = k := by simpa using hpath
      have hrest := ih hb (by simpa using hlast)
      rw [List.cons_append, List.cons_append, pathWeight?_cons_cons, ha, ← List.cons_append, hrest]
      simp [Nat.add_assoc]

end GraphSearch.Route
