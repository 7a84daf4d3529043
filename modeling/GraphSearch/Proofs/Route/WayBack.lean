import GraphSearch.Proofs.Route.Walks
import GraphSearch.Route.Exploration
import Mathlib.Data.List.Nodup
import Mathlib.Logic.Relation

/-!
# The way back through the arrivals

A search records for each vertex that it has reached the cost and the vertex before it. Going from
each vertex to the one before it leads back towards the start. Since costs never rise on that way, a
vertex that is now reached at a lower cost by way of `c` does not lie on the way back from `c`
(`Rooted.not_before_of_better`). So entering the better arrival changes no way back except by
leading it over `c` (`before_enter`, `properlyBefore_enter`), and every way back keeps ending at the
start (`Rooted.enter`).

The path that a search returns is such a way, read from the start (`Trail`). It repeats no vertex,
so that striking the vertices that have been passed does not change it (`Trail.pathTo_eq`):
following the record as it stands comes to the same path and ends as well.
-/

namespace GraphSearch.Route

open Relation (ReflTransGen TransGen)
open Std (HashMap)

namespace Arrivals

variable {r : Arrivals} {c u v x z : Vertex} {j k : Nat}

/-! ### What a record says of a vertex -/

/-- The vertex has been reached, at the cost `k`. -/
def Reaches (r : Arrivals) (v : Vertex) (k : Nat) : Prop := ∃ via, r[v]? = some ⟨k, via⟩

/-- The vertex `v` has been reached by way of `u`. -/
def Via (r : Arrivals) (v u : Vertex) : Prop := ∃ k, r[v]? = some ⟨k, some u⟩

/-- The record in which `x` has been reached at the cost `k` by way of `u`. -/
def enter (r : Arrivals) (x : Vertex) (k : Nat) (u : Vertex) : Arrivals := r.insert x ⟨k, some u⟩

theorem Reaches.unique (h : r.Reaches v j) (h' : r.Reaches v k) : j = k := by
  obtain ⟨_, h⟩ := h
  obtain ⟨_, h'⟩ := h'
  exact congrArg Arrival.cost (Option.some.inj (h.symm.trans h'))

theorem Via.unique (h : r.Via v u) (h' : r.Via v x) : u = x := by
  obtain ⟨_, h⟩ := h
  obtain ⟨_, h'⟩ := h'
  exact Option.some.inj (congrArg Arrival.via (Option.some.inj (h.symm.trans h')))

/-- A cost improves on the record if it is lower than any that the record has for the vertex. -/
theorem improves_iff : r.improves v k = true ↔ ∀ j, r.Reaches v j → k < j := by
  unfold improves Reaches
  cases hr : r[v]? with
  | none => simp
  | some a =>
    obtain ⟨j, via⟩ := a
    simp

theorem not_improves_iff : ¬r.improves v k = true ↔ ∃ j ≤ k, r.Reaches v j := by
  rw [improves_iff]
  push Not
  exact exists_congr fun j ↦ and_comm

theorem reaches_enter : (r.enter x j u).Reaches v k ↔ v = x ∧ k = j ∨ v ≠ x ∧ r.Reaches v k := by
  unfold Reaches enter
  rw [HashMap.getElem?_insert]
  rcases eq_or_ne x v with rfl | hne
  · simp [eq_comm]
  · simp [hne, hne.symm]

theorem reaches_enter_self : (r.enter x j u).Reaches x j := reaches_enter.2 (Or.inl ⟨rfl, rfl⟩)

theorem via_enter : (r.enter x j c).Via v u ↔ v = x ∧ u = c ∨ v ≠ x ∧ r.Via v u := by
  unfold Via enter
  rw [HashMap.getElem?_insert]
  rcases eq_or_ne x v with rfl | hne
  · simp [eq_comm]
  · simp [hne, hne.symm]

/-- With a better arrival no vertex gets more expensive. -/
theorem Reaches.enter (hv : r.Reaches v k) (hbetter : ∀ i, r.Reaches x i → j < i) :
    ∃ i ≤ k, (r.enter x j c).Reaches v i := by
  rcases eq_or_ne v x with rfl | hne
  · exact ⟨j, (hbetter k hv).le, reaches_enter_self⟩
  · exact ⟨k, Nat.le_refl k, reaches_enter.2 (Or.inr ⟨hne, hv⟩)⟩

/-! ### Going back -/

/-- Going back from `v` leads to `u`. -/
def Before (r : Arrivals) (v u : Vertex) : Prop := ReflTransGen r.Via v u

/-- Going back from `v`, by one vertex at least, leads to `u`. -/
def ProperlyBefore (r : Arrivals) (v u : Vertex) : Prop := TransGen r.Via v u

theorem ProperlyBefore.before (h : r.ProperlyBefore v u) : r.Before v u := h.to_reflTransGen

theorem properlyBefore_iff : r.ProperlyBefore v u ↔ ∃ x, r.Via v x ∧ r.Before x u :=
  TransGen.head'_iff

/-- There is one way back only. -/
theorem ProperlyBefore.of_via (h : r.ProperlyBefore v u) (hvia : r.Via v x) : r.Before x u := by
  obtain ⟨y, hy, hbefore⟩ := properlyBefore_iff.1 h
  exact hvia.unique hy ▸ hbefore

theorem Before.properly (h : r.Before v u) (hne : v ≠ u) : r.ProperlyBefore v u := by
  rcases ReflTransGen.cases_head h with rfl | hhead
  · exact absurd rfl hne
  · exact properlyBefore_iff.2 hhead

theorem before_enter_self (hx : ¬r.Before c x) :
    (r.enter x j c).Before c u ↔ r.Before c u := by
  constructor
  · intro h
    induction h with
    | refl => exact .refl
    | @tail y z _ hvia ih =>
      have hy : y ≠ x := fun hyx ↦ hx (hyx ▸ ih)
      rcases via_enter.1 hvia with ⟨rfl, -⟩ | ⟨-, hvia⟩
      · exact absurd rfl hy
      · exact ih.tail hvia
  · intro h
    induction h with
    | refl => exact .refl
    | @tail y z hbefore hvia ih =>
      have hy : y ≠ x := fun hyx ↦ hx (hyx ▸ hbefore)
      exact ih.tail (via_enter.2 (Or.inr ⟨hy, hvia⟩))

/-- With `x` reached by way of `c`, a way back is an old one or has come past `c`. -/
theorem before_enter (h : (r.enter x j c).Before z u) :
    r.Before z u ∨ r.Before c u := by
  induction h using ReflTransGen.head_induction_on with
  | refl => exact Or.inl .refl
  | head hvia _ ih =>
    rcases via_enter.1 hvia with ⟨-, rfl⟩ | ⟨-, hvia⟩
    · exact Or.inr (ih.elim id id)
    · exact ih.imp_left (ReflTransGen.head hvia)

theorem properlyBefore_enter (h : (r.enter x j c).ProperlyBefore z u) :
    z ≠ x ∧ r.ProperlyBefore z u ∨ r.Before c u := by
  obtain ⟨y, hvia, hbefore⟩ := properlyBefore_iff.1 h
  have hbefore := before_enter hbefore
  rcases via_enter.1 hvia with ⟨-, rfl⟩ | ⟨hz, hvia⟩
  · exact Or.inr (hbefore.elim id id)
  · exact hbefore.imp_left fun hbefore ↦ ⟨hz, properlyBefore_iff.2 ⟨y, hvia, hbefore⟩⟩

/-- A way back that avoids `x` stays. -/
theorem before_enter_of_before (h : r.Before z u) :
    (r.enter x j c).Before z u ∨ (r.enter x j c).Before z x := by
  induction h using ReflTransGen.head_induction_on with
  | refl => exact Or.inl .refl
  | @head y z hvia _ ih =>
    rcases eq_or_ne y x with rfl | hy
    · exact Or.inr .refl
    · have hvia : (r.enter x j c).Via y z := via_enter.2 (Or.inr ⟨hy, hvia⟩)
      exact ih.imp (ReflTransGen.head hvia) (ReflTransGen.head hvia)

/-! ### Records that lead back to the start -/

/-- What a search keeps true of its record: the start has been reached at no cost, each other vertex
along an edge from the vertex before it at no less than the costs of both, each way back ends at the
start, and each cost is that of a path without repetition. -/
structure Rooted (calls : List Addition) (start : Vertex) (r : Arrivals) : Prop where
  /-- The start has been reached at no cost, and nothing lies before it. -/
  start_eq : r[start]? = some ⟨0, none⟩
  /-- An edge leads from the vertex before to each vertex, and its weight has been counted. -/
  edge : ∀ v u, r.Via v u →
    ∃ j w k, r.Reaches u j ∧ Joined calls u v w ∧ r.Reaches v k ∧ j + w.toNat ≤ k
  /-- Each way back ends at the start. -/
  home : ∀ v k, r.Reaches v k → r.Before v start
  /-- Each cost is that of a path without repetition over vertices of at most that cost. -/
  path : ∀ v k, r.Reaches v k →
    ∃ path, SimplePath calls start v path k ∧ ∀ y ∈ path, ∃ j ≤ k, r.Reaches y j

namespace Rooted

variable {calls : List Addition} {start : Vertex} {w : UInt32} {g : Nat}

theorem reaches_start (h : Rooted calls start r) : r.Reaches start 0 := ⟨none, h.start_eq⟩

/-- Costs do not rise on the way back. -/
theorem exists_le_of_before (h : Rooted calls start r) (hbefore : r.Before v u)
    (hv : r.Reaches v k) : ∃ j ≤ k, r.Reaches u j := by
  induction hbefore with
  | refl => exact ⟨k, Nat.le_refl k, hv⟩
  | tail _ hvia ih =>
    obtain ⟨i, hi, hy⟩ := ih
    obtain ⟨j, w, i', hu, -, hy', hle⟩ := h.edge _ _ hvia
    obtain rfl := hy.unique hy'
    exact ⟨j, by omega, hu⟩

theorem le_of_before (h : Rooted calls start r) (hbefore : r.Before v u) (hv : r.Reaches v k)
    (hu : r.Reaches u j) : j ≤ k := by
  obtain ⟨i, hi, hu'⟩ := h.exists_le_of_before hbefore hv
  exact hu.unique hu' ▸ hi

/-- No cost exceeds the weight of all edges. -/
theorem le_totalWeight (h : Rooted calls start r) (hv : r.Reaches v k) : k ≤ totalWeight calls := by
  obtain ⟨_, hpath, -⟩ := h.path v k hv
  exact hpath.weight_le

/-- Nothing lies before the start. -/
theorem not_via_start (h : Rooted calls start r) : ¬r.Via start u := by
  rintro ⟨k, hvia⟩
  rw [h.start_eq] at hvia
  cases hvia

/-- Nothing improves on the start. -/
theorem ne_start_of_better (h : Rooted calls start r) (hbetter : ∀ j, r.Reaches x j → k < j) :
    x ≠ start := by
  rintro rfl
  exact Nat.not_lt_zero _ (hbetter 0 h.reaches_start)

/-- A vertex that is reached better by way of `c` does not lie before `c`. -/
theorem not_before_of_better (h : Rooted calls start r) (hc : r.Reaches c g)
    (hbetter : ∀ j, r.Reaches x j → g + w.toNat < j) : ¬r.Before c x := by
  intro hbefore
  obtain ⟨j, hj, hx⟩ := h.exists_le_of_before hbefore hc
  have := hbetter j hx
  omega

/-- **A better arrival by way of a vertex that has been reached** leaves each way back at the
start. -/
theorem enter (h : Rooted calls start r) (hc : r.Reaches c g) (hedge : Joined calls c x w)
    (hbetter : ∀ j, r.Reaches x j → g + w.toNat < j) :
    Rooted calls start (r.enter x (g + w.toNat) c) := by
  have hstart : x ≠ start := h.ne_start_of_better hbetter
  have hx : ¬r.Before c x := h.not_before_of_better hc hbetter
  have hcx : c ≠ x := fun hcx ↦ hx (hcx ▸ .refl)
  have hhome : (r.enter x (g + w.toNat) c).Before x start := by
    refine .head (via_enter.2 (Or.inl ⟨rfl, rfl⟩)) ?_
    exact (before_enter_self hx).2 (h.home c g hc)
  refine ⟨?_, ?_, ?_, ?_⟩
  · rw [Arrivals.enter, HashMap.getElem?_insert, if_neg (by simpa using hstart), h.start_eq]
  · intro v u hvia
    rcases via_enter.1 hvia with ⟨rfl, rfl⟩ | ⟨hv, hvia⟩
    · exact ⟨g, w, _, reaches_enter.2 (Or.inr ⟨hcx, hc⟩), hedge,
        reaches_enter_self, Nat.le_refl _⟩
    · obtain ⟨j, w', k, hu, hjoined, hv', hle⟩ := h.edge v u hvia
      obtain ⟨i, hi, hu⟩ := hu.enter hbetter
      exact ⟨i, w', k, hu, hjoined, reaches_enter.2 (Or.inr ⟨hv, hv'⟩), by omega⟩
  · intro v k hv
    rcases reaches_enter.1 hv with ⟨rfl, -⟩ | ⟨-, hv⟩
    · exact hhome
    · rcases before_enter_of_before (h.home v k hv) with hbefore | hbefore
      · exact hbefore
      · exact hbefore.trans hhome
  · intro v k hv
    rcases reaches_enter.1 hv with ⟨rfl, rfl⟩ | ⟨-, hv⟩
    · -- The path to `c` holds vertices that cost no more than `c`, so `v` is not on it.
      obtain ⟨path, hpath, hle⟩ := h.path c g hc
      refine ⟨v :: path, hpath.tail hedge fun hmem ↦ ?_, ?_⟩
      · obtain ⟨j, hj, hreach⟩ := hle v hmem
        have := hbetter j hreach
        omega
      · intro y hy
        rcases List.mem_cons.1 hy with rfl | hy
        · exact ⟨_, Nat.le_refl _, hv⟩
        · obtain ⟨j, hj, hreach⟩ := hle y hy
          obtain ⟨i, hi, hreach⟩ := hreach.enter hbetter
          exact ⟨i, by omega, hreach⟩
    · obtain ⟨path, hpath, hle⟩ := h.path v k hv
      refine ⟨path, hpath, fun y hy ↦ ?_⟩
      obtain ⟨j, hj, hreach⟩ := hle y hy
      obtain ⟨i, hi, hreach⟩ := hreach.enter hbetter
      exact ⟨i, by omega, hreach⟩

/-- So the cost of a better arrival does not exceed the weight of all edges. -/
theorem add_le_totalWeight (h : Rooted calls start r) (hc : r.Reaches c g)
    (hedge : Joined calls c x w) (hbetter : ∀ j, r.Reaches x j → g + w.toNat < j) :
    g + w.toNat ≤ totalWeight calls :=
  (h.enter hc hedge hbetter).le_totalWeight reaches_enter_self

end Rooted

/-- The record in which the start alone has been reached has nothing else. -/
theorem eq_start_of_reaches {start : Vertex}
    (h : Reaches (HashMap.emptyWithCapacity.insert start ⟨0, none⟩) v k) : v = start ∧ k = 0 := by
  obtain ⟨via, h⟩ := h
  rw [HashMap.getElem?_insert] at h
  split at h <;> simp_all

/-- That record leads back to the start. -/
theorem rooted_singleton (calls : List Addition) (start : Vertex) :
    Rooted calls start (HashMap.emptyWithCapacity.insert start ⟨0, none⟩) := by
  refine ⟨by simp, ?_, ?_, ?_⟩
  · rintro v u ⟨k, hvia⟩
    rw [HashMap.getElem?_insert] at hvia
    split at hvia <;> simp at hvia
  · intro v k hv
    obtain ⟨rfl, -⟩ := eq_start_of_reaches hv
    exact .refl
  · intro v k hv
    obtain ⟨rfl, rfl⟩ := eq_start_of_reaches hv
    exact ⟨[v], .refl, fun y hy ↦ ⟨0, Nat.le_refl 0, by rwa [List.mem_singleton.1 hy]⟩⟩

end Arrivals

/-! ### The path from the start -/

/-- The vertices on the way from the start to `v`, in which each was reached by way of the one
before it. -/
inductive Trail (start : Vertex) (r : Arrivals) : Vertex → List Vertex → Prop where
  /-- The way to the start holds the start alone. -/
  | start : Trail start r start [start]
  /-- The way to another vertex leads over the one by way of which it was reached. -/
  | next {u v : Vertex} {path : List Vertex} (other : v ≠ start) (via : r.Via v u)
      (before : Trail start r u path) : Trail start r v (path ++ [v])

namespace Trail

variable {start u v : Vertex} {r : Arrivals} {path path' : List Vertex}

theorem of_before (h : r.Before v start) : ∃ path, Trail start r v path := by
  induction h using ReflTransGen.head_induction_on with
  | refl => exact ⟨[start], .start⟩
  | @head v u hvia _ ih =>
    obtain ⟨path, hpath⟩ := ih
    rcases eq_or_ne v start with rfl | hv
    · exact ⟨[v], .start⟩
    · exact ⟨path ++ [v], .next hv hvia hpath⟩

theorem unique (h : Trail start r v path) (h' : Trail start r v path') : path = path' := by
  induction h generalizing path' with
  | start =>
    cases h' with
    | start => rfl
    | next other _ _ => exact absurd rfl other
  | next other via _ ih =>
    cases h' with
    | start => exact absurd rfl other
    | next _ via' before' =>
      obtain rfl := via.unique via'
      rw [ih before']

/-- The way to a vertex holds the ways to all vertices on it. -/
theorem exists_of_mem (h : Trail start r v path) {x : Vertex} (hx : x ∈ path) :
    ∃ front, Trail start r x front ∧ front.length ≤ path.length := by
  induction h with
  | start =>
    obtain rfl := List.mem_singleton.1 hx
    exact ⟨[x], .start, Nat.le_refl _⟩
  | @next u v path other via before ih =>
    rcases List.mem_append.1 hx with hx | hx
    · obtain ⟨front, hfront, hle⟩ := ih hx
      exact ⟨front, hfront, by simp; omega⟩
    · obtain rfl := List.mem_singleton.1 hx
      exact ⟨path ++ [x], .next other via before, Nat.le_refl _⟩

/-- A way does not come back to the vertex that it leads to. -/
theorem notMem (other : v ≠ start) (via : r.Via v u) (before : Trail start r u path) :
    v ∉ path := by
  intro hv
  obtain ⟨front, hfront, hle⟩ := before.exists_of_mem hv
  have := hfront.unique (.next other via before)
  simp [this] at hle

theorem nodup (h : Trail start r v path) : path.Nodup := by
  induction h with
  | start => exact List.nodup_singleton _
  | next other via before ih =>
    have := notMem other via before
    exact List.nodup_append.2 ⟨ih, List.nodup_singleton _, by simp; grind⟩

theorem head?_eq (h : Trail start r v path) : path.head? = some start := by
  induction h with
  | start => rfl
  | next _ _ _ ih => simp [List.head?_append, ih]

theorem getLast?_eq (h : Trail start r v path) : path.getLast? = some v := by
  cases h <;> simp

/-- **The path of a search is the way to its last vertex**, although the search strikes each vertex
that it has passed. -/
theorem pathTo_eq (h : Trail start r v path) (after : List Vertex) :
    Exploration.pathTo start r v after = path ++ after := by
  -- What is left of the record agrees with it on the vertices that are still to be passed.
  suffices hsuff : ∀ r' : Arrivals, (∀ x ∈ path, r'[x]? = r[x]?) →
      Exploration.pathTo start r' v after = path ++ after from hsuff r fun _ _ ↦ rfl
  induction h generalizing after with
  | start =>
    intro r' _
    rw [Exploration.pathTo, if_pos rfl]
    rfl
  | @next u v path other via before ih =>
    intro r' hr
    obtain ⟨k, hk⟩ := via
    have hv : r'[v]? = some ⟨k, some u⟩ := (hr v (by simp)).trans hk
    have herase : ∀ x ∈ path, (r'.erase v)[x]? = r[x]? := by
      intro x hx
      have hne : v ≠ x := fun hvx ↦ notMem other ⟨k, hk⟩ before (hvx ▸ hx)
      rw [HashMap.getElem?_erase, if_neg (by simpa using hne), hr x (by simp [hx])]
    rw [Exploration.pathTo, if_neg other]
    split
    · rename_i heq
      rw [hv] at heq
      cases heq
      rw [ih _ _ herase]
      simp
    · rename_i hnone
      exact absurd hv (hnone k u)

end Trail

end GraphSearch.Route
