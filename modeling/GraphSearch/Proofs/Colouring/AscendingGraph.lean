import GraphSearch.Proofs.Colouring.DeclaredGraph
import Mathlib.Data.List.Sort

/-!
# The order in a declared graph

Labels ascend with their numbers, every neighbourhood ascends, and the edges stand in lexicographic
order (`Declarations.edges_graph`). The rows are not sorted for that: the collected edges ascend, so
do those between the numbers, and the edges at one variable ascend in their other ends
(`acrossFrom_lt`).

So a graph leaves no freedom in how it is kept. `Graph.Represents` says which labels a graph has and
which of them it joins, together with the order of its parts, and two graphs that represent the same
are the same graph (`Graph.Represents.unique`). A declared graph represents what the calls declare
(`Graph.represents_declared`).
-/

namespace GraphSearch.Colouring

/-! ### The order of the collected edges -/

namespace Declarations

variable {d : Declarations}

theorem edgeBefore_iff {e f : Label × Label} :
    edgeBefore e f = true ↔ e.1 < f.1 ∨ e.1 = f.1 ∧ e.2 < f.2 := by
  simp [edgeBefore]

theorem edgeBefore_trans (e f g : Label × Label) (h : edgeBefore e f = true)
    (h' : edgeBefore f g = true) : edgeBefore e g = true := by
  rw [edgeBefore_iff] at h h' ⊢
  grind

theorem pairwise_edges_record {c : Declaration} (h : d.edges.Pairwise (edgeBefore · ·)) :
    (d.record c).edges.Pairwise (edgeBefore · ·) := by
  cases c with
  | vertex u => exact h
  | edge u v =>
    by_cases huv : u = v
    · subst huv
      rwa [record_edge_self]
    · rw [record_edge_of_ne d huv]
      exact Ascending.pairwise_insert edgeBefore_connected edgeBefore_trans h

theorem pairwise_edges_ofCalls (calls : List Declaration) :
    (ofCalls calls).edges.Pairwise (edgeBefore · ·) := by
  have hfold : ∀ d : Declarations, d.edges.Pairwise (edgeBefore · ·) →
      (calls.foldl record d).edges.Pairwise (edgeBefore · ·) := by
    induction calls with
    | nil => exact fun d h ↦ h
    | cons c calls ih => exact fun d h ↦ ih _ (pairwise_edges_record h)
  exact hfold {} .nil

theorem nodup_of_pairwise_edgeBefore (h : d.edges.Pairwise (edgeBefore · ·)) : d.edges.Nodup := by
  refine h.imp fun {e f} hef heq ↦ ?_
  subst heq
  simp [edgeBefore] at hef

/-- The collected edges are the joined labels, the smaller one first. -/
theorem WellFormed.mem_edges_iff (h : d.WellFormed) {e : Label × Label} :
    e ∈ d.edges ↔ e.1 < e.2 ∧ d.Joins e.1 e.2 := by
  have hjoins : ∀ hlt : e.1 < e.2, d.Joins e.1 e.2 ↔ e ∈ d.edges := fun hlt ↦ by
    rw [Joins, min_eq_left hlt.le, max_eq_right hlt.le]
  constructor
  · intro he
    have hlt := h.ends_ascending e he
    exact ⟨hlt, (hjoins hlt).2 he⟩
  · rintro ⟨hlt, he⟩
    exact (hjoins hlt).1 he

/-! ### The order of the numbers -/

/-- Numbers ascend with their labels. -/
theorem WellFormed.idxOf_lt_idxOf (h : d.WellFormed) {u v : Label} (hu : u ∈ d.labels)
    (hv : v ∈ d.labels) (huv : u < v) : d.labels.idxOf u < d.labels.idxOf v := by
  have hu' := List.idxOf_lt_length_of_mem hu
  have hv' := List.idxOf_lt_length_of_mem hv
  rcases lt_trichotomy (d.labels.idxOf u) (d.labels.idxOf v) with hlt | heq | hgt
  · exact hlt
  · exact absurd ((List.idxOf_inj hu).1 heq) huv.ne
  · have hvu := List.pairwise_iff_getElem.1 h.labels_ascending _ _ hv' hu' hgt
    rw [List.getElem_idxOf, List.getElem_idxOf] at hvu
    exact absurd hvu huv.not_gt

/-- The edges between the numbers. -/
def numberedEdges (d : Declarations) : List (Variable × Variable) :=
  d.edges.map fun e ↦ (d.labels.idxOf e.1, d.labels.idxOf e.2)

theorem WellFormed.lt_of_mem_numberedEdges (h : d.WellFormed) {e : Variable × Variable}
    (he : e ∈ d.numberedEdges) : e.1 < e.2 := by
  obtain ⟨f, hf, rfl⟩ := List.mem_map.1 he
  obtain ⟨h₁, h₂⟩ := h.ends_mem f hf
  exact h.idxOf_lt_idxOf h₁ h₂ (h.ends_ascending f hf)

/-- The edges between the numbers stand in the order of those between the labels. -/
theorem WellFormed.pairwise_numberedEdges (h : d.WellFormed)
    (hedges : d.edges.Pairwise (edgeBefore · ·)) :
    d.numberedEdges.Pairwise (Prod.Lex (· < ·) (· < ·)) := by
  refine List.pairwise_map.2 (hedges.imp_of_mem fun {e f} he hf hef ↦ ?_)
  obtain ⟨he₁, he₂⟩ := h.ends_mem e he
  obtain ⟨hf₁, hf₂⟩ := h.ends_mem f hf
  rcases edgeBefore_iff.1 hef with hlt | ⟨heq, hlt⟩
  · exact Prod.lex_def.2 (Or.inl (h.idxOf_lt_idxOf he₁ hf₁ hlt))
  · exact Prod.lex_def.2 (Or.inr ⟨congrArg (d.labels.idxOf ·) heq, h.idxOf_lt_idxOf he₂ hf₂ hlt⟩)

end Declarations

/-! ### The order of the neighbours -/

/-- Of two edges at one variable, each with its smaller end first, the earlier one has the smaller
other end. -/
theorem acrossFrom_lt {e f : Variable × Variable} (he : e.1 < e.2) (hf : f.1 < f.2)
    (hef : Prod.Lex (· < ·) (· < ·) e f) {x y z : Variable} (hy : acrossFrom x e = some y)
    (hz : acrossFrom x f = some z) : y < z := by
  rw [Prod.lex_def] at hef
  rw [acrossFrom_eq_some_iff he.ne] at hy
  rw [acrossFrom_eq_some_iff hf.ne] at hz
  rcases hy with rfl | rfl <;> rcases hz with rfl | rfl <;> grind

namespace Declarations

variable {d : Declarations}

/-- **Every neighbourhood ascends.** -/
theorem pairwise_row_graph (h : d.WellFormed) (hedges : d.edges.Pairwise (edgeBefore · ·))
    (x : Variable) : (d.graph.row x).Pairwise (· < ·) := by
  rcases Nat.lt_or_ge x d.labels.length with hx | hx
  · rw [row_graph hx]
    refine (List.Pairwise.and_mem.1 (h.pairwise_numberedEdges hedges)).filterMap _ ?_
    rintro e f ⟨he, hf, hef⟩ y hy z hz
    exact acrossFrom_lt (h.lt_of_mem_numberedEdges he) (h.lt_of_mem_numberedEdges hf) hef hy hz
  · have hnone : d.graph.row x = [] := Table.getD_of_size_le (by simpa [graph] using hx) []
    rw [hnone]
    exact .nil

end Declarations

namespace Graph

theorem pairwise_pairs_neighbours (g : Graph) :
    g.neighbours.pairs.Pairwise fun p q ↦ p.1 < q.1 := by
  rw [Table.pairs, List.pairwise_map, List.pairwise_iff_getElem]
  intro i j hi hj hij
  simpa using hij

/-- All pairs of neighbours, in both orientations. -/
def neighbourPairs (g : Graph) : List (Variable × Variable) :=
  g.neighbours.pairs.flatMap fun (x, row) ↦ row.map fun y ↦ (x, y)

/-- Where the neighbourhoods ascend, the pairs of neighbours stand in lexicographic order. -/
theorem pairwise_neighbourPairs {g : Graph} (h : ∀ x, (g.row x).Pairwise (· < ·)) :
    g.neighbourPairs.Pairwise (Prod.Lex (· < ·) (· < ·)) := by
  refine List.pairwise_flatMap.2 ⟨?_, g.pairwise_pairs_neighbours.imp fun {p q} hpq e he f hf ↦ ?_⟩
  · rintro ⟨x, row⟩ hrow
    obtain ⟨-, rfl⟩ := (Table.mem_pairs []).1 hrow
    refine List.pairwise_map.2 ((h x).imp fun {y z} hyz ↦ ?_)
    exact Prod.lex_def.2 (Or.inr ⟨rfl, hyz⟩)
  · obtain ⟨_, -, rfl⟩ := List.mem_map.1 he
    obtain ⟨_, -, rfl⟩ := List.mem_map.1 hf
    exact Prod.lex_def.2 (Or.inl hpq)

/-- The edges are the pairs of neighbours whose smaller end comes first. -/
theorem edges_eq_filter (g : Graph) : g.edges = g.neighbourPairs.filter fun e ↦ e.1 < e.2 := by
  simp [edges, neighbourPairs, List.filter_flatMap, List.filter_map, Function.comp_def]

/-- Where the neighbourhoods ascend, the edges stand in lexicographic order. -/
theorem pairwise_edges {g : Graph} (h : ∀ x, (g.row x).Pairwise (· < ·)) :
    g.edges.Pairwise (Prod.Lex (· < ·) (· < ·)) := by
  rw [edges_eq_filter]
  exact (pairwise_neighbourPairs h).filter _

end Graph

namespace Declarations

variable {d : Declarations}

/-- **The edges of a declared graph are the collected ones**, in their order. -/
theorem edges_graph (h : d.WellFormed) (hedges : d.edges.Pairwise (edgeBefore · ·)) :
    d.graph.edges = d.numberedEdges := by
  refine (Graph.pairwise_edges (pairwise_row_graph h hedges)).eq_of_mem_iff
    (h.pairwise_numberedEdges hedges) fun e ↦ ?_
  rw [Graph.mem_edges]
  constructor
  · rintro ⟨hy, hlt⟩
    have hx : e.1 < d.labels.length := by
      simpa [graph] using Graph.lt_size_neighbours_of_mem_row hy
    rw [row_graph hx, List.mem_filterMap] at hy
    obtain ⟨f, hf, hfe⟩ := hy
    have hf' := h.lt_of_mem_numberedEdges hf
    -- The edge turned around would descend.
    rcases (acrossFrom_eq_some_iff hf'.ne).1 hfe with rfl | rfl
    · exact hf
    · exact absurd hf' hlt.not_gt
  · intro he
    have hlt := h.lt_of_mem_numberedEdges he
    have hx : e.1 < d.labels.length := by
      obtain ⟨f, hf, rfl⟩ := List.mem_map.1 he
      exact List.idxOf_lt_length_of_mem (h.ends_mem f hf).1
    rw [row_graph hx]
    exact ⟨List.mem_filterMap.2 ⟨e, he, (acrossFrom_eq_some_iff hlt.ne).2 (Or.inl rfl)⟩, hlt⟩

end Declarations

/-! ### What a graph represents -/

namespace Graph

/-- The labels of the graph are those of which `isLabel` holds, and it joins those pairs of them of
which `joined` holds. All its parts ascend. -/
structure Represents (g : Graph) (isLabel : Label → Prop) (joined : Label → Label → Prop) :
    Prop where
  /-- The labels are strictly ascending. -/
  labels_ascending : g.labels.toList.Pairwise (· < ·)
  /-- The labels are the given ones. -/
  mem_labels : ∀ u, u ∈ g.labels.toList ↔ isLabel u
  /-- Every variable has a neighbourhood. -/
  size_neighbours : g.neighbours.size = g.size
  /-- Neighbourhoods are strictly ascending. -/
  row_ascending : ∀ x, (g.row x).Pairwise (· < ·)
  /-- Neighbours are those variables whose labels are joined. -/
  mem_row : ∀ x y, y ∈ g.row x ↔
    ∃ u v, g.labelOf x = .ok u ∧ g.labelOf y = .ok v ∧ joined u v
  /-- Every edge is counted once. -/
  edgeCount_eq : g.edgeCount = g.edges.length

theorem labelOf_eq_ok_iff_getElem? {g : Graph} {x : Variable} {u : Label} :
    g.labelOf x = .ok u ↔ g.labels.toList[x]? = some u := Table.get_eq_ok_iff

/-- A number is found for the entries of a list, and it is their first place. -/
theorem idxOf?_eq_some_iff_idxOf_eq {l : List Label} {u : Label} {x : Variable} :
    l.idxOf? u = some x ↔ u ∈ l ∧ l.idxOf u = x := by
  rw [← List.isSome_idxOf?, List.idxOf_eq_getD_idxOf?]
  cases l.idxOf? u <;> simp

/-- **Looking a label up gives the variable whose label it is.** -/
theorem Represents.find?_eq_some_iff {g : Graph} {isLabel : Label → Prop}
    {joined : Label → Label → Prop} (h : g.Represents isLabel joined) {u : Label} {x : Variable} :
    g.find? u = some x ↔ g.labelOf x = .ok u := by
  have hnodup : g.labels.toList.Nodup := h.labels_ascending.imp fun hlt ↦ hlt.ne
  rw [find?, idxOf?_eq_some_iff_idxOf_eq, labelOf_eq_ok_iff_getElem?,
    getElem?_eq_some_iff_idxOf_eq hnodup]

/-- **A graph is determined by what it represents.** -/
theorem Represents.unique {g g' : Graph} {isLabel : Label → Prop} {joined : Label → Label → Prop}
    (h : g.Represents isLabel joined) (h' : g'.Represents isLabel joined) : g = g' := by
  have hlist : g.labels.toList = g'.labels.toList :=
    h.labels_ascending.eq_of_mem_iff h'.labels_ascending fun u ↦
      (h.mem_labels u).trans (h'.mem_labels u).symm
  have hsize : g.size = g'.size := size_eq_of_labels_eq hlist
  have hlabels : g.labels = g'.labels :=
    Table.eq_of_getD_eq 0 hsize fun x _ ↦ by rw [Table.getD, hlist, Table.getD]
  have hrow : ∀ x, g.row x = g'.row x := fun x ↦
    (h.row_ascending x).eq_of_mem_iff (h'.row_ascending x) fun y ↦ by
      rw [h.mem_row, h'.mem_row]
      simp only [labelOf, hlabels]
  have hneighbours : g.neighbours = g'.neighbours :=
    Table.eq_of_getD_eq [] (h.size_neighbours.trans (hsize.trans h'.size_neighbours.symm))
      fun x _ ↦ hrow x
  have hcount : g.edgeCount = g'.edgeCount := by
    rw [h.edgeCount_eq, h'.edgeCount_eq, edges, edges, hneighbours]
  obtain ⟨labels, neighbours, edgeCount⟩ := g
  obtain ⟨labels', neighbours', edgeCount'⟩ := g'
  rw [mk.injEq]
  exact ⟨hlabels, hneighbours, hcount⟩

/-- **A declared graph represents what the calls declare.** -/
theorem represents_declared (calls : List Declaration) :
    (declared calls).Represents (fun u ↦ ∃ c ∈ calls, c.Names u)
      fun u v ↦ ∃ c ∈ calls, c.Joins u v where
  labels_ascending := pairwise_labels_declared calls
  mem_labels _ := mem_labels_declared
  size_neighbours := (simple_declared calls).size_neighbours
  row_ascending := Declarations.pairwise_row_graph (Declarations.wellFormed_ofCalls calls)
    (Declarations.pairwise_edges_ofCalls calls)
  mem_row _ _ := mem_row_declared
  edgeCount_eq := by
    rw [declared, Declarations.edges_graph (Declarations.wellFormed_ofCalls calls)
      (Declarations.pairwise_edges_ofCalls calls), Declarations.numberedEdges, List.length_map]
    rfl

/-- In an ascending list the first entry that is not below `y` decides whether `y` is an entry. -/
theorem head?_dropWhile_lt_eq {l : List Variable} (h : l.Pairwise (· < ·)) (y : Variable) :
    ((l.dropWhile (· < y)).head? == some y) = decide (y ∈ l) := by
  induction h with
  | nil => simp
  | @cons z l hz _ ih =>
    rcases Nat.lt_trichotomy z y with hlt | rfl | hgt
    · rw [List.dropWhile_cons_of_pos (by simpa using hlt), ih]
      simp [hlt.ne']
    · simp
    · have hy : y ∉ l := fun hy ↦ hgt.not_gt (hz y hy)
      rw [List.dropWhile_cons_of_neg (by simpa using hgt.le)]
      simp [hy, hgt.ne, hgt.ne']

/-- **Looking for a neighbour finds it** where the neighbourhoods ascend. -/
theorem adjacent_eq_ok {g : Graph} (h : ∀ x, (g.row x).Pairwise (· < ·)) {x : Variable}
    (hx : x < g.neighbours.size) (y : Variable) :
    g.adjacent x y = .ok (decide (y ∈ g.row x)) := by
  rw [adjacent, neighboursOf_eq_ok_iff.2 ⟨hx, rfl⟩]
  exact congrArg Except.ok (head?_dropWhile_lt_eq (h x) y)

theorem adjacent_eq_ok_true_iff {g : Graph} (h : ∀ x, (g.row x).Pairwise (· < ·)) {x y : Variable} :
    g.adjacent x y = .ok true ↔ y ∈ g.row x := by
  by_cases hx : x < g.neighbours.size
  · rw [adjacent_eq_ok h hx]
    simp
  · have hrow : g.row x = [] := Table.getD_of_size_le (not_lt.1 hx) []
    have hpast : g.neighboursOf x = .error _ := Table.get_eq_error_iff.2 ⟨not_lt.1 hx, rfl⟩
    rw [adjacent, hpast, hrow]
    simp

end Graph

end GraphSearch.Colouring
