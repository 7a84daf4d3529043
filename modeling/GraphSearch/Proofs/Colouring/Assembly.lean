import GraphSearch.Proofs.Colouring.AscendingGraph

/-!
# Graphs put together from sets

A set gives its elements back in no particular order. `Graph.assemble` makes a graph of labels and
edges that come from sets: it sorts the labels and numbers them, enters each edge at both of its
ends as the edges come, and sorts each neighbourhood in the end. It looks a label's number up, reads
and writes neighbourhoods by number, and each of these steps faults where there is nothing to be
found.

Whatever order the labels and the edges come in, no step faults, and the result is the graph that is
made in ascending order from the start (`assemble_eq_ok`). Before the neighbourhoods are sorted,
that of `x` holds the ends across from `x` in the order of the edges (`exists_enterAll_eq_ok`), so
sorting is all that remains between two orders.

A graph checks itself when it is put together: `Graph.isSymmetric` looks every variable up among the
neighbours of its neighbours. Declared graphs pass (`isSymmetric_declared`).
-/

namespace GraphSearch

/-! ### Changing an entry -/

namespace Table

universe u

variable {α : Type u} {t : Table α} {k : Nat}

/-- Changes the entry of number `k` by `f`. -/
def adjust (t : Table α) (k : Nat) (f : α → α) : Except Fault (Table α) := do
  let a ← t.get k
  t.set k (f a)

theorem exists_adjust_eq_ok (h : k < t.size) (f : α → α) (d : α) :
    ∃ s, t.adjust k f = .ok s ∧ s.size = t.size ∧
      ∀ j, s.getD j d = if j = k then f (t.getD k d) else t.getD j d := by
  obtain ⟨s, hs⟩ := exists_set_eq_ok h (f (t.getD k d))
  refine ⟨s, ?_, size_of_set_eq_ok hs, fun j ↦ getD_of_set_eq_ok hs j d⟩
  rw [adjust, (get_eq_ok_iff_getD d).2 ⟨h, rfl⟩, ok_bind, hs]

end Table

/-- An order of distinct entries is lost by sorting them. -/
theorem mergeSort_eq_of_perm {α : Type} [LinearOrder α] {l m : List α} (h : l.Perm m)
    (hm : m.Pairwise (· < ·)) : l.mergeSort (fun a b ↦ decide (a ≤ b)) = m :=
  ((List.mergeSort_perm l _).trans h).eq_of_pairwise' (List.pairwise_mergeSort' (· ≤ ·) l)
    (hm.imp le_of_lt)

namespace Colouring

namespace Graph

/-! ### Putting a graph together -/

/-- The number of a label in the list of all labels. -/
def numberIn (labels : List Label) (u : Label) : Except Fault Variable :=
  match labels.idxOf? u with
  | some x => .ok x
  | none => .error (.indexOutOfRange labels.length labels.length)

/-- Enters an edge at both of its ends. -/
def enter (labels : List Label) (rows : Table (List Variable)) (e : Label × Label) :
    Except Fault (Table (List Variable)) := do
  let x ← numberIn labels e.1
  let y ← numberIn labels e.2
  let rows ← rows.adjust x (· ++ [y])
  rows.adjust y (· ++ [x])

/-- Sorts the neighbourhood of a variable. -/
def sortRow (rows : Table (List Variable)) (x : Variable) : Except Fault (Table (List Variable)) :=
  rows.adjust x fun row ↦ row.mergeSort (· ≤ ·)

/-- The graph of labels and edges without repetitions, in whatever order they come. -/
def assemble (labels : List Label) (edges : List (Label × Label)) : Except Fault Graph := do
  let sorted := labels.mergeSort (· ≤ ·)
  let rows ← edges.foldlM (enter sorted) (.filled sorted.length [])
  let rows ← rows.keys.foldlM sortRow rows
  return { labels := .ofList sorted, neighbours := rows, edgeCount := edges.length }

/-- Whether neighbours are neighbours of each other and never the variable itself. -/
def isSymmetric (g : Graph) : Except Fault Bool :=
  g.neighbours.pairs.allM fun (x, row) ↦ row.allM fun y ↦
    if y = x then return false else g.adjacent y x

theorem numberIn_eq_ok {labels : List Label} {u : Label} (h : u ∈ labels) :
    numberIn labels u = .ok (labels.idxOf u) := by
  rw [numberIn, idxOf?_eq_some_iff_idxOf_eq.2 ⟨h, rfl⟩]

/-- **Entering an edge** puts each of its ends last in the neighbourhood of the other. -/
theorem exists_enter_eq_ok {labels : List Label} {rows : Table (List Variable)}
    (hrows : rows.size = labels.length) {e : Label × Label} (h₁ : e.1 ∈ labels)
    (h₂ : e.2 ∈ labels) (hne : e.1 ≠ e.2) :
    ∃ rows', enter labels rows e = .ok rows' ∧ rows'.size = rows.size ∧
      ∀ z, rows'.getD z [] =
        rows.getD z [] ++ (acrossFrom z (labels.idxOf e.1, labels.idxOf e.2)).toList := by
  have hx := hrows ▸ List.idxOf_lt_length_of_mem h₁
  have hy := hrows ▸ List.idxOf_lt_length_of_mem h₂
  have hxy : labels.idxOf e.1 ≠ labels.idxOf e.2 := fun heq ↦ hne ((List.idxOf_inj h₁).1 heq)
  obtain ⟨rows₁, hok₁, hsize₁, hget₁⟩ := Table.exists_adjust_eq_ok hx (· ++ [labels.idxOf e.2]) []
  obtain ⟨rows₂, hok₂, hsize₂, hget₂⟩ :=
    Table.exists_adjust_eq_ok (hsize₁.symm ▸ hy) (· ++ [labels.idxOf e.1]) []
  refine ⟨rows₂, ?_, hsize₂.trans hsize₁, fun z ↦ ?_⟩
  · rw [enter, numberIn_eq_ok h₁, ok_bind, numberIn_eq_ok h₂, ok_bind, hok₁, ok_bind, hok₂]
  · -- The two writes do not meet, since the ends are different.
    rw [hget₂, hget₁, hget₁, acrossFrom]
    grind

/-- Before they are sorted, neighbours stand in the order of the edges. -/
theorem exists_enterAll_eq_ok {labels : List Label} {edges : List (Label × Label)}
    (rows : Table (List Variable)) (hrows : rows.size = labels.length)
    (hends : ∀ e ∈ edges, e.1 ∈ labels ∧ e.2 ∈ labels ∧ e.1 ≠ e.2) :
    ∃ rows', edges.foldlM (enter labels) rows = .ok rows' ∧ rows'.size = rows.size ∧
      ∀ z, rows'.getD z [] = rows.getD z [] ++
        (edges.map fun e ↦ (labels.idxOf e.1, labels.idxOf e.2)).filterMap (acrossFrom z) := by
  induction edges generalizing rows with
  | nil => exact ⟨rows, rfl, rfl, by simp⟩
  | cons e edges ih =>
    obtain ⟨h₁, h₂, hne⟩ := hends e List.mem_cons_self
    obtain ⟨rows₁, hok₁, hsize₁, hget₁⟩ := exists_enter_eq_ok hrows h₁ h₂ hne
    obtain ⟨rows', hok, hsize, hget⟩ :=
      ih rows₁ (hsize₁.trans hrows) fun f hf ↦ hends f (List.mem_cons_of_mem _ hf)
    refine ⟨rows', ?_, hsize.trans hsize₁, fun z ↦ ?_⟩
    · rw [List.foldlM_cons, hok₁, ok_bind, hok]
    · rw [hget, hget₁, List.map_cons, List.filterMap_cons, List.append_assoc]
      cases acrossFrom z (labels.idxOf e.1, labels.idxOf e.2) <;> rfl

/-- Sorting neighbourhoods one after another sorts each of them. -/
theorem exists_sortRows_eq_ok (rows : Table (List Variable)) {xs : List Variable}
    (hnodup : xs.Nodup) (hxs : ∀ x ∈ xs, x < rows.size) :
    ∃ rows', xs.foldlM sortRow rows = .ok rows' ∧ rows'.size = rows.size ∧
      ∀ z, rows'.getD z [] =
        if z ∈ xs then (rows.getD z []).mergeSort (· ≤ ·) else rows.getD z [] := by
  induction xs generalizing rows with
  | nil => exact ⟨rows, rfl, rfl, by simp⟩
  | cons x xs ih =>
    obtain ⟨hx, hnodup⟩ := List.nodup_cons.1 hnodup
    obtain ⟨rows₁, hok₁, hsize₁, hget₁⟩ := Table.exists_adjust_eq_ok
      (hxs x List.mem_cons_self) (fun row : List Variable ↦ row.mergeSort (· ≤ ·)) []
    obtain ⟨rows', hok, hsize, hget⟩ := ih rows₁ hnodup
      fun y hy ↦ hsize₁.symm ▸ hxs y (List.mem_cons_of_mem _ hy)
    refine ⟨rows', ?_, hsize.trans hsize₁, fun z ↦ ?_⟩
    · rw [List.foldlM_cons, sortRow, hok₁, ok_bind, hok]
    · rw [hget, hget₁]
      by_cases hz : z = x
      · subst hz
        simp [hx]
      · simp [hz]

end Graph

/-! ### The order of the sets leaves no trace -/

namespace Declarations

variable {d : Declarations}

/-- **Whatever order labels and edges come in, the same graph is put together**, and without a
fault. -/
theorem assemble_eq_ok (h : d.WellFormed) (hedges : d.edges.Pairwise (edgeBefore · ·))
    {labels : List Label} {edges : List (Label × Label)} (hl : labels.Perm d.labels)
    (he : edges.Perm d.edges) : Graph.assemble labels edges = .ok d.graph := by
  have hsorted : labels.mergeSort (· ≤ ·) = d.labels := mergeSort_eq_of_perm hl h.labels_ascending
  have hends : ∀ e ∈ edges, e.1 ∈ d.labels ∧ e.2 ∈ d.labels ∧ e.1 ≠ e.2 := fun e hmem ↦
    have hmem := he.mem_iff.1 hmem
    ⟨(h.ends_mem e hmem).1, (h.ends_mem e hmem).2, (h.ends_ascending e hmem).ne⟩
  obtain ⟨rows₁, hok₁, hsize₁, hget₁⟩ := Graph.exists_enterAll_eq_ok
    (.filled d.labels.length []) (Table.size_filled ..) hends
  have hkeys : rows₁.keys.Nodup := List.nodup_range
  obtain ⟨rows₂, hok₂, hsize₂, hget₂⟩ :=
    Graph.exists_sortRows_eq_ok rows₁ hkeys fun x hx ↦ List.mem_range.1 hx
  have hrows : rows₂ = d.graph.neighbours := by
    refine Table.eq_of_getD_eq [] ?_ fun z hz ↦ ?_
    · rw [hsize₂, hsize₁, Table.size_filled, (simple_graph h).size_neighbours]
      simp [graph, Graph.size]
    · have hz' : z < d.labels.length := by
        rwa [hsize₂, hsize₁, Table.size_filled] at hz
      have hkey : z ∈ rows₁.keys := List.mem_range.2 (hsize₂ ▸ hz)
      have hblank : (Table.filled d.labels.length ([] : List Variable)).getD z [] = [] := by
        simp [Table.getD, hz']
      rw [hget₂, if_pos hkey, hget₁, hblank, List.nil_append]
      refine mergeSort_eq_of_perm ?_ (pairwise_row_graph h hedges z)
      show List.Perm _ (d.graph.row z)
      rw [row_graph hz']
      exact (he.map _).filterMap _
  rw [Graph.assemble, hsorted, hok₁, ok_bind, hok₂, ok_bind, hrows, he.length_eq]
  rfl

end Declarations

namespace Graph

/-- The symmetry of a graph shows where its neighbourhoods ascend. -/
theorem isSymmetric_eq_ok {g : Graph} (hg : g.Simple) (h : ∀ x, (g.row x).Pairwise (· < ·)) :
    g.isSymmetric = .ok true := by
  refine allM_eq_ok_true_iff.2 ?_
  rintro ⟨x, row⟩ hrow
  obtain ⟨-, rfl⟩ := (Table.mem_pairs []).1 hrow
  refine allM_eq_ok_true_iff.2 fun y hy ↦ ?_
  have hne : y ≠ x := fun heq ↦ hg.irrefl x (heq ▸ hy)
  rw [if_neg hne]
  exact (adjacent_eq_ok_true_iff h).2 (hg.symm hy)

/-- **Declared graphs are seen to be symmetric.** -/
theorem isSymmetric_declared (calls : List Declaration) :
    (declared calls).isSymmetric = .ok true :=
  isSymmetric_eq_ok (simple_declared calls) (represents_declared calls).row_ascending

end Graph

end Colouring

end GraphSearch
