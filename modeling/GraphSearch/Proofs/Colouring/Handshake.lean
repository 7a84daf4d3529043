import GraphSearch.Colouring.ArcConsistency
import GraphSearch.Proofs.Colouring.AscendingGraph
import Mathlib.Data.List.Perm.Basic

/-!
# Arcs and edges

Each edge of a declared graph is two arcs (`length_arcs_declared`). The arcs are counted twice: at
each variable there are as many as it has edges, and each edge has two ends among the variables,
since no vertex is joined to itself.

A graph keeps neither its edges nor its arcs. Both are read off the neighbourhoods: the arcs are all
pairs of neighbours, the edges those with the smaller end first. So one lexicographic order serves
for both lists, and none of them has an entry twice (`declared_lists`).
-/

namespace GraphSearch.Colouring

/-- The arcs are the pairs of neighbours, in their order. -/
theorem Graph.map_arcs (g : Graph) :
    (g.arcs.map fun a ↦ (a.target, a.support)) = g.neighbourPairs := by
  simp [arcs, neighbourPairs, List.map_flatMap, Function.comp_def]

theorem Graph.mem_arcs {g : Graph} {a : Arc} : a ∈ g.arcs ↔ a.support ∈ g.row a.target := by
  simp only [Graph.arcs, List.mem_flatMap, List.mem_map, Prod.exists, Table.mem_pairs []]
  constructor
  · rintro ⟨x, _, ⟨-, rfl⟩, y, hy, rfl⟩
    exact hy
  · intro ha
    exact ⟨_, _, ⟨lt_size_neighbours_of_mem_row ha, rfl⟩, _, ha, rfl⟩

/-- The arcs are as many as the entries of all neighbourhoods. -/
theorem Graph.length_arcs (g : Graph) : g.arcs.length = sumOf List.length g.neighbours.toList := by
  have hrow : ∀ p ∈ g.neighbours.pairs,
      ((p.2.map fun y ↦ (⟨p.1, y⟩ : Arc)).length) = p.2.length := fun p _ ↦ List.length_map ..
  rw [Graph.arcs, length_flatMap_eq_sumOf, sumOf_congr hrow, Table.pairs, sumOf_map,
    ← sumOf_map List.length Prod.fst, List.zipIdx_map_fst]

/-- An edge has two ends among the variables. -/
theorem countP_acrossFrom {n : Nat} {e : Variable × Variable} (hne : e.1 ≠ e.2) (h₁ : e.1 < n)
    (h₂ : e.2 < n) : (List.range n).countP (fun x ↦ (acrossFrom x e).isSome) = 2 := by
  have hends : ((List.range n).filter fun x ↦ (acrossFrom x e).isSome).Perm [e.1, e.2] := by
    refine (List.perm_ext_iff_of_nodup (List.nodup_range.filter _) (by simpa using hne)).2 ?_
    intro x
    rw [List.mem_filter, List.mem_range, acrossFrom]
    constructor
    · rintro ⟨-, hx⟩
      split at hx
      · rename_i h
        simp [h]
      · split at hx
        · rename_i h
          simp [h]
        · cases hx
    · intro hx
      rcases List.mem_pair.1 hx with rfl | rfl
      · exact ⟨h₁, by simp⟩
      · exact ⟨h₂, by simp [hne]⟩
  rw [List.countP_eq_length_filter, hends.length_eq]
  rfl

theorem Declarations.WellFormed.length_arcs {d : Declarations} (h : d.WellFormed) :
    d.graph.arcs.length = 2 * d.graph.edgeCount := by
  let edges := d.edges.map fun e ↦ (d.labels.idxOf e.1, d.labels.idxOf e.2)
  have hends : ∀ e ∈ edges,
      (List.range d.labels.length).countP (fun x ↦ (acrossFrom x e).isSome) = 2 := by
    intro e' he'
    obtain ⟨e, he, rfl⟩ := List.mem_map.1 he'
    obtain ⟨h₁, h₂⟩ := h.ends_mem e he
    refine countP_acrossFrom (fun heq ↦ ?_) (List.idxOf_lt_length_of_mem h₁)
      (List.idxOf_lt_length_of_mem h₂)
    exact (h.ends_ascending e he).ne ((List.idxOf_inj h₁).1 heq)
  calc d.graph.arcs.length
      = sumOf (fun x ↦ (edges.filterMap (acrossFrom x)).length) (List.range d.labels.length) := by
        rw [Graph.length_arcs, Declarations.graph, Table.toList_ofList, sumOf_map]
    _ = sumOf (fun x ↦ edges.countP fun e ↦ (acrossFrom x e).isSome)
          (List.range d.labels.length) :=
        sumOf_congr fun x _ ↦ List.length_filterMap_eq_countP
    _ = sumOf (fun e ↦ (List.range d.labels.length).countP fun x ↦ (acrossFrom x e).isSome) edges :=
        sumOf_countP_comm (fun x e ↦ (acrossFrom x e).isSome) _ _
    _ = sumOf (fun _ ↦ 2) edges := sumOf_congr hends
    _ = 2 * d.edges.length := by rw [sumOf_const, List.length_map]

/-- **Each edge of a declared graph is two arcs.** -/
theorem Graph.length_arcs_declared (calls : List Declaration) :
    (declared calls).arcs.length = 2 * (declared calls).edgeCount :=
  (Declarations.wellFormed_ofCalls calls).length_arcs

/-! ### Listing edges and arcs -/

namespace Graph

/-- The list of the edges has each pair of adjacent variables once, its smaller end first, and it is
in lexicographic order. -/
structure ListsEdges (g : Graph) : Prop where
  /-- The edges are the adjacent pairs with the smaller end first. -/
  mem_iff : ∀ x y, (x, y) ∈ g.edges ↔ x < y ∧ g.adjacent x y = .ok true
  /-- They are strictly ascending in lexicographic order. -/
  ascending : g.edges.Pairwise (Prod.Lex (· < ·) (· < ·))
  /-- Two adjacent variables are listed once, in one of their orientations. -/
  once : ∀ x y, g.adjacent x y = .ok true → g.edges.count (x, y) + g.edges.count (y, x) = 1
  /-- They are as many as are counted. -/
  length_eq : g.edges.length = g.edgeCount

/-- The list of the arcs has each ordered pair of adjacent variables once. The arcs of one target
stand together, and targets and supports ascend. -/
structure ListsArcs (g : Graph) : Prop where
  /-- The arcs are the adjacent pairs in both orientations. -/
  mem_iff : ∀ a, a ∈ g.arcs ↔ g.adjacent a.target a.support = .ok true
  /-- Targets ascend, and so do the supports of one target. -/
  ascending : g.arcs.Pairwise fun a b ↦
    a.target < b.target ∨ a.target = b.target ∧ a.support < b.support
  /-- Every ordered pair of adjacent variables is listed once. -/
  once : ∀ a, g.adjacent a.target a.support = .ok true → g.arcs.count a = 1
  /-- There are two arcs for each edge. -/
  length_eq : g.arcs.length = 2 * g.edgeCount
  /-- There are as many arcs as all degrees together. -/
  sum_degrees : ∃ degrees, g.allVariables.mapM g.degree = .ok degrees ∧
    sumOf id degrees = g.arcs.length

variable {g : Graph}

/-- Edges are listed once where the neighbourhoods ascend and are symmetric. -/
theorem listsEdges (hg : g.Simple) (h : ∀ x, (g.row x).Pairwise (· < ·))
    (hcount : g.edgeCount = g.edges.length) : g.ListsEdges := by
  have hnodup : g.edges.Nodup := (pairwise_edges h).nodup
  refine ⟨fun x y ↦ ?_, pairwise_edges h, fun x y hxy ↦ ?_, hcount.symm⟩
  · rw [mem_edges, adjacent_eq_ok_true_iff h, and_comm]
  · have hy := (adjacent_eq_ok_true_iff h).1 hxy
    rcases lt_trichotomy x y with hlt | rfl | hgt
    · have hmem : (x, y) ∈ g.edges := mem_edges.2 ⟨hy, hlt⟩
      have hnot : (y, x) ∉ g.edges := fun he ↦ hlt.not_gt (mem_edges.1 he).2
      rw [List.count_eq_one_of_mem hnodup hmem, List.count_eq_zero_of_not_mem hnot]
    · exact absurd hy (hg.irrefl x)
    · have hmem : (y, x) ∈ g.edges := mem_edges.2 ⟨hg.symm hy, hgt⟩
      have hnot : (x, y) ∉ g.edges := fun he ↦ hgt.not_gt (mem_edges.1 he).2
      rw [List.count_eq_one_of_mem hnodup hmem, List.count_eq_zero_of_not_mem hnot]

theorem Simple.sum_degrees (hg : g.Simple) :
    ∃ degrees, g.allVariables.mapM g.degree = .ok degrees ∧
      sumOf id degrees = g.arcs.length := by
  have hdegree : ∀ x ∈ g.allVariables, g.degree x = .ok (g.row x).length := fun x hx ↦ by
    rw [degree, hg.neighboursOf_eq_ok (List.mem_range.1 hx)]
    rfl
  refine ⟨_, mapM_eq_ok hdegree, ?_⟩
  rw [length_arcs, Table.toList_eq_map_getD g.neighbours [], sumOf_map, sumOf_map,
    hg.size_neighbours]
  rfl

/-- Arcs are listed once where the neighbourhoods ascend. -/
theorem listsArcs (hg : g.Simple) (h : ∀ x, (g.row x).Pairwise (· < ·))
    (hlength : g.arcs.length = 2 * g.edgeCount) : g.ListsArcs := by
  have hascending : g.arcs.Pairwise fun a b ↦
      a.target < b.target ∨ a.target = b.target ∧ a.support < b.support := by
    have hpairs := pairwise_neighbourPairs h
    rw [← map_arcs, List.pairwise_map] at hpairs
    exact hpairs.imp Prod.lex_def.1
  have hmem : ∀ a, a ∈ g.arcs ↔ g.adjacent a.target a.support = .ok true := fun a ↦
    mem_arcs.trans (adjacent_eq_ok_true_iff h).symm
  have hnodup : g.arcs.Nodup := hascending.imp fun {a b} hab heq ↦ by
    subst heq
    exact hab.elim (lt_irrefl _) fun h ↦ lt_irrefl _ h.2
  exact ⟨hmem, hascending, fun a ha ↦ List.count_eq_one_of_mem hnodup ((hmem a).2 ha), hlength,
    hg.sum_degrees⟩

/-- **Every edge of a declared graph is listed once, and so is every arc.** -/
theorem declared_lists (calls : List Declaration) :
    (declared calls).ListsEdges ∧ (declared calls).ListsArcs := by
  have hg := simple_declared calls
  have hrepresents := represents_declared calls
  exact ⟨listsEdges hg hrepresents.row_ascending hrepresents.edgeCount_eq,
    listsArcs hg hrepresents.row_ascending (length_arcs_declared calls)⟩

end Graph

end GraphSearch.Colouring
