import GraphSearch.Colouring.Graph
import GraphSearch.Proofs.Faultless
import Mathlib.Data.List.Nodup
import Mathlib.Algebra.Order.Group.Int

/-!
# The graph of a sequence of declarations

A graph comes about by declaring vertices and edges, one after another. `Graph.declared calls` is
the graph of a sequence of such calls, where a self loop is refused and leaves everything as it was.
What the calls say is stated about the calls alone: `Declaration.Names` says which labels a call
declares, and `Declaration.Joins` which two it joins.

`mem_labels_ofCalls` and `joins_ofCalls` carry both through the collected declarations, and
`mem_row_declared` through the numbering: `y` is a neighbour of `x` exactly if some call joins their
labels. All that a search needs of its graph follows from that and is kept in `Graph.Simple`: the
neighbourhoods are symmetric and no vertex is its own neighbour. Both rest on the refusal of self
loops and on the labels being different from each other.
-/

namespace GraphSearch.Colouring

/-- One call of a sequence of declarations. -/
inductive Declaration where
  /-- The vertex `u` is declared. -/
  | vertex (u : Label)
  /-- The edge between `u` and `v` is declared. -/
  | edge (u v : Label)
deriving DecidableEq, Repr

namespace Declaration

/-- The call joins the two labels by an edge, in either orientation. A self loop joins nothing. -/
def Joins (c : Declaration) (u v : Label) : Prop := u ≠ v ∧ (c = edge u v ∨ c = edge v u)

/-- The call declares the label, by itself or as an end of an edge. -/
def Names (c : Declaration) (u : Label) : Prop := c = vertex u ∨ ∃ v, c.Joins u v

theorem Joins.symm {c : Declaration} {u v : Label} (h : c.Joins u v) : c.Joins v u :=
  ⟨h.1.symm, h.2.symm⟩

theorem names_vertex_iff {u v : Label} : (vertex v).Names u ↔ u = v := by
  simp [Names, Joins, eq_comm]

theorem names_edge_iff {u v w : Label} : (edge v w).Names u ↔ v ≠ w ∧ (u = v ∨ u = w) := by
  constructor
  · rintro (h | ⟨x, hne, h | h⟩)
    · cases h
    · obtain ⟨rfl, rfl⟩ := edge.inj h
      exact ⟨hne, Or.inl rfl⟩
    · obtain ⟨rfl, rfl⟩ := edge.inj h
      exact ⟨hne.symm, Or.inr rfl⟩
  · rintro ⟨hne, rfl | rfl⟩
    · exact Or.inr ⟨w, hne, Or.inl rfl⟩
    · exact Or.inr ⟨v, hne.symm, Or.inr rfl⟩

end Declaration

namespace Declarations

/-! ### Collecting declarations -/

/-- Records a call. A self loop is refused and leaves everything as it was. -/
def record (d : Declarations) : Declaration → Declarations
  | .vertex u => d.addVertex u
  | .edge u v =>
    match d.addEdge u v with
    | .ok d' => d'
    | .error _ => d

/-- What a sequence of calls declares. -/
def ofCalls (calls : List Declaration) : Declarations := calls.foldl record {}

/-- The two labels are the ends of a collected edge. -/
def Joins (d : Declarations) (u v : Label) : Prop := (min u v, max u v) ∈ d.edges

/-- The form in which declarations are collected: the labels ascend, and an edge runs from the
smaller to the larger of two of them. -/
structure WellFormed (d : Declarations) : Prop where
  /-- The labels are strictly ascending. -/
  labels_ascending : d.labels.Pairwise (· < ·)
  /-- The smaller end of an edge comes first. -/
  ends_ascending : ∀ e ∈ d.edges, e.1 < e.2
  /-- The ends of an edge are declared. -/
  ends_mem : ∀ e ∈ d.edges, e.1 ∈ d.labels ∧ e.2 ∈ d.labels

theorem labelBefore_connected (u v : Label) (h : labelBefore u v = false)
    (h' : labelBefore v u = false) : u = v := by
  simp only [labelBefore, decide_eq_false_iff_not, not_lt] at h h'
  exact le_antisymm h' h

theorem edgeBefore_connected (e f : Label × Label) (h : edgeBefore e f = false)
    (h' : edgeBefore f e = false) : e = f := by
  simp only [edgeBefore, Bool.or_eq_false_iff, Bool.and_eq_false_iff, decide_eq_false_iff_not,
    not_lt] at h h'
  have hfst : e.1 = f.1 := le_antisymm h'.1 h.1
  have hsnd : e.2 = f.2 := le_antisymm (h'.2.resolve_left (· hfst.symm)) (h.2.resolve_left (· hfst))
  exact Prod.ext hfst hsnd

/-- Two pairs of different labels have the same ends in ascending order if they are the same pair.
-/
theorem min_max_eq_iff {u v w x : Int} (h : w ≠ x) :
    min u v = min w x ∧ max u v = max w x ↔ u ≠ v ∧ (w = u ∧ x = v ∨ w = v ∧ x = u) := by
  omega

theorem mem_labels_addVertex {d : Declarations} {u v : Label} :
    v ∈ (d.addVertex u).labels ↔ v = u ∨ v ∈ d.labels :=
  Ascending.mem_insert labelBefore_connected

theorem addEdge_self (d : Declarations) (u : Label) : d.addEdge u u = .error ⟨u⟩ := if_pos rfl

theorem addEdge_of_ne (d : Declarations) {u v : Label} (h : u ≠ v) :
    d.addEdge u v = .ok { (d.addVertex u).addVertex v with
      edges := Ascending.insert edgeBefore (min u v, max u v) d.edges } :=
  if_neg h

theorem pairwise_labels_addVertex {d : Declarations} (u : Label) (h : d.labels.Pairwise (· < ·)) :
    (d.addVertex u).labels.Pairwise (· < ·) := by
  have hd : d.labels.Pairwise (labelBefore · ·) := h.imp fun hab ↦ decide_eq_true hab
  have htrans : ∀ x y z, labelBefore x y = true → labelBefore y z = true →
      labelBefore x z = true := by
    simp only [labelBefore, decide_eq_true_eq]
    intro x y z hxy hyz
    exact hxy.trans hyz
  exact (Ascending.pairwise_insert labelBefore_connected htrans hd).imp of_decide_eq_true

/-! ### What a call adds -/

theorem record_edge_self (d : Declarations) (u : Label) : d.record (.edge u u) = d := by
  rw [record, addEdge_self]

theorem record_edge_of_ne (d : Declarations) {u v : Label} (h : u ≠ v) :
    d.record (.edge u v) = { (d.addVertex u).addVertex v with
      edges := Ascending.insert edgeBefore (min u v, max u v) d.edges } := by
  rw [record, addEdge_of_ne d h]

theorem mem_labels_record {d : Declarations} {c : Declaration} {u : Label} :
    u ∈ (d.record c).labels ↔ c.Names u ∨ u ∈ d.labels := by
  cases c with
  | vertex v =>
    rw [record, mem_labels_addVertex, Declaration.names_vertex_iff]
  | edge v w =>
    rw [Declaration.names_edge_iff]
    by_cases hvw : v = w
    · subst hvw
      rw [record_edge_self]
      simp
    · rw [record_edge_of_ne d hvw]
      show u ∈ ((d.addVertex v).addVertex w).labels ↔ _
      rw [mem_labels_addVertex, mem_labels_addVertex]
      tauto

theorem joins_record {d : Declarations} {c : Declaration} {u v : Label} :
    (d.record c).Joins u v ↔ c.Joins u v ∨ d.Joins u v := by
  cases c with
  | vertex w =>
    show d.Joins u v ↔ _
    simp [Declaration.Joins]
  | edge w x =>
    simp only [Declaration.Joins, Declaration.edge.injEq]
    by_cases hwx : w = x
    · subst hwx
      rw [record_edge_self]
      grind
    · rw [record_edge_of_ne d hwx]
      show (min u v, max u v) ∈ Ascending.insert edgeBefore (min w x, max w x) d.edges ↔ _
      rw [Ascending.mem_insert edgeBefore_connected, Prod.mk.injEq, min_max_eq_iff hwx]
      rfl

theorem WellFormed.record {d : Declarations} (h : d.WellFormed) (c : Declaration) :
    (d.record c).WellFormed := by
  cases c with
  | vertex u =>
    refine ⟨pairwise_labels_addVertex u h.labels_ascending, h.ends_ascending, ?_⟩
    intro e he
    obtain ⟨h₁, h₂⟩ := h.ends_mem e he
    exact ⟨mem_labels_addVertex.2 (Or.inr h₁), mem_labels_addVertex.2 (Or.inr h₂)⟩
  | edge u v =>
    by_cases huv : u = v
    · subst huv
      rwa [record_edge_self]
    · rw [record_edge_of_ne d huv]
      have hedges : ∀ e ∈ Ascending.insert edgeBefore (min u v, max u v) d.edges,
          e = (min u v, max u v) ∨ e ∈ d.edges :=
        fun e he ↦ (Ascending.mem_insert edgeBefore_connected).1 he
      refine ⟨?_, ?_, ?_⟩
      · exact pairwise_labels_addVertex v (pairwise_labels_addVertex u h.labels_ascending)
      · intro e he
        rcases hedges e he with rfl | he
        · exact min_lt_max.2 huv
        · exact h.ends_ascending e he
      · intro e he
        show e.1 ∈ ((d.addVertex u).addVertex v).labels ∧ e.2 ∈ ((d.addVertex u).addVertex v).labels
        simp only [mem_labels_addVertex]
        rcases hedges e he with rfl | he
        · exact ⟨or_left_comm.1 (or_assoc.1 (Or.inl (min_choice u v))),
            or_left_comm.1 (or_assoc.1 (Or.inl (max_choice u v)))⟩
        · obtain ⟨h₁, h₂⟩ := h.ends_mem e he
          exact ⟨Or.inr (Or.inr h₁), Or.inr (Or.inr h₂)⟩

/-! ### What a sequence of calls adds -/

theorem mem_labels_foldl_record {calls : List Declaration} {d : Declarations} {u : Label} :
    u ∈ (calls.foldl record d).labels ↔ (∃ c ∈ calls, c.Names u) ∨ u ∈ d.labels := by
  induction calls generalizing d with
  | nil => simp
  | cons c calls ih =>
    rw [List.foldl_cons, ih, mem_labels_record, List.exists_mem_cons_iff, or_assoc, or_left_comm]

theorem joins_foldl_record {calls : List Declaration} {d : Declarations} {u v : Label} :
    (calls.foldl record d).Joins u v ↔ (∃ c ∈ calls, c.Joins u v) ∨ d.Joins u v := by
  induction calls generalizing d with
  | nil => simp
  | cons c calls ih =>
    rw [List.foldl_cons, ih, joins_record, List.exists_mem_cons_iff, or_assoc, or_left_comm]

/-- **The labels are those that some call declares.** -/
theorem mem_labels_ofCalls {calls : List Declaration} {u : Label} :
    u ∈ (ofCalls calls).labels ↔ ∃ c ∈ calls, c.Names u := by
  rw [ofCalls, mem_labels_foldl_record]
  simp

/-- **The edges are those that some call declares.** -/
theorem joins_ofCalls {calls : List Declaration} {u v : Label} :
    (ofCalls calls).Joins u v ↔ ∃ c ∈ calls, c.Joins u v := by
  rw [ofCalls, joins_foldl_record]
  simp [Joins]

theorem wellFormed_foldl_record {calls : List Declaration} {d : Declarations} (h : d.WellFormed) :
    (calls.foldl record d).WellFormed := by
  induction calls generalizing d with
  | nil => exact h
  | cons c calls ih => exact ih (h.record c)

theorem wellFormed_ofCalls (calls : List Declaration) : (ofCalls calls).WellFormed :=
  wellFormed_foldl_record ⟨List.Pairwise.nil, by simp, by simp⟩

end Declarations

/-! ### Graphs -/

namespace Graph

/-- The neighbours of a variable, none past the end. -/
def row (g : Graph) (x : Variable) : List Variable := g.neighbours.getD x []

/-- A graph whose neighbourhoods are symmetric and in which no vertex is its own neighbour. -/
structure Simple (g : Graph) : Prop where
  /-- Every variable has a neighbourhood. -/
  size_neighbours : g.neighbours.size = g.size
  /-- Neighbourhoods are symmetric. -/
  symm : ∀ {x y}, y ∈ g.row x → x ∈ g.row y
  /-- No variable is its own neighbour. -/
  irrefl : ∀ x, x ∉ g.row x

/-- The colouring gives different colours to the ends of every edge. -/
def IsProper (g : Graph) (f : Variable → Colour) : Prop := ∀ x y, y ∈ g.row x → f x ≠ f y

/-- Graphs with the same labels have as many variables. -/
theorem size_eq_of_labels_eq {g h : Graph} (hlabels : g.labels.toList = h.labels.toList) :
    g.size = h.size := by
  rw [size, size, ← Table.length_toList, hlabels, Table.length_toList]

theorem neighboursOf_eq_ok_iff {g : Graph} {x : Variable} {l : List Variable} :
    g.neighboursOf x = .ok l ↔ x < g.neighbours.size ∧ l = g.row x :=
  Table.get_eq_ok_iff_getD []

theorem lt_size_neighbours_of_mem_row {g : Graph} {x y : Variable} (h : y ∈ g.row x) :
    x < g.neighbours.size := by
  by_contra hx
  rw [row, Table.getD_of_size_le (not_lt.1 hx)] at h
  exact List.not_mem_nil h

/-- The edges are the pairs of neighbours, the smaller end first. -/
theorem mem_edges {g : Graph} {e : Variable × Variable} :
    e ∈ g.edges ↔ e.2 ∈ g.row e.1 ∧ e.1 < e.2 := by
  simp only [edges, List.mem_flatMap, List.mem_map, List.mem_filter, decide_eq_true_eq, Prod.exists,
    Table.mem_pairs []]
  constructor
  · rintro ⟨x, _, ⟨-, rfl⟩, y, hy, rfl⟩
    exact hy
  · intro he
    exact ⟨e.1, _, ⟨lt_size_neighbours_of_mem_row he.1, rfl⟩, e.2, he, rfl⟩

namespace Simple

variable {g : Graph} (h : g.Simple)

include h

theorem lt_size_left {x y : Variable} (hy : y ∈ g.row x) : x < g.size :=
  h.size_neighbours ▸ lt_size_neighbours_of_mem_row hy

theorem lt_size_right {x y : Variable} (hy : y ∈ g.row x) : y < g.size :=
  h.lt_size_left (h.symm hy)

theorem neighboursOf_eq_ok {x : Variable} (hx : x < g.size) : g.neighboursOf x = .ok (g.row x) :=
  neighboursOf_eq_ok_iff.2 ⟨h.size_neighbours ▸ hx, rfl⟩

end Simple

/-- The graph of a sequence of declarations. -/
def declared (calls : List Declaration) : Graph := (Declarations.ofCalls calls).graph

end Graph

/-! ### Numbering the labels -/

theorem acrossFrom_eq_some_iff {x y : Variable} {e : Variable × Variable} (h : e.1 ≠ e.2) :
    acrossFrom x e = some y ↔ e = (x, y) ∨ e = (y, x) := by
  unfold acrossFrom
  grind

/-- In a list without repetitions a place and the entry that stands there determine each other. -/
theorem getElem?_eq_some_iff_idxOf_eq {l : List Label} (hl : l.Nodup) {x : Variable} {u : Label} :
    l[x]? = some u ↔ u ∈ l ∧ l.idxOf u = x := by
  rw [List.getElem?_eq_some_iff]
  constructor
  · rintro ⟨hx, rfl⟩
    exact ⟨List.getElem_mem hx, hl.idxOf_getElem x hx⟩
  · rintro ⟨hu, rfl⟩
    exact ⟨List.idxOf_lt_length_of_mem hu, List.getElem_idxOf _⟩

namespace Declarations

variable {d : Declarations}

theorem labelOf_graph_eq_ok_iff {x : Variable} {u : Label} :
    d.graph.labelOf x = .ok u ↔ d.labels[x]? = some u := by
  rw [Graph.labelOf, Table.get_eq_ok_iff, graph, Table.toList_ofList]

theorem WellFormed.nodup_labels (h : d.WellFormed) : d.labels.Nodup :=
  h.labels_ascending.imp fun hlt ↦ hlt.ne

theorem row_graph {x : Variable} (hx : x < d.labels.length) :
    d.graph.row x =
      (d.edges.map fun e ↦ (d.labels.idxOf e.1, d.labels.idxOf e.2)).filterMap (acrossFrom x) := by
  simp [Graph.row, graph, Table.getD_ofList, List.getElem?_range hx]

/-- **The neighbours of a variable are those whose labels are joined to its own.** -/
theorem mem_row_graph (h : d.WellFormed) {x y : Variable} :
    y ∈ d.graph.row x ↔ ∃ u v, d.labels[x]? = some u ∧ d.labels[y]? = some v ∧ d.Joins u v := by
  have hidx : ∀ e ∈ d.edges, d.labels.idxOf e.1 ≠ d.labels.idxOf e.2 := fun e he heq ↦
    (h.ends_ascending e he).ne ((List.idxOf_inj (h.ends_mem e he).1).1 heq)
  constructor
  · intro hy
    have hx : x < d.labels.length := by
      simpa [graph] using Graph.lt_size_neighbours_of_mem_row hy
    rw [row_graph hx, List.filterMap_map, List.mem_filterMap] at hy
    obtain ⟨e, he, hxy⟩ := hy
    have hlt := h.ends_ascending e he
    obtain ⟨h₁, h₂⟩ := h.ends_mem e he
    rcases (acrossFrom_eq_some_iff (hidx e he)).1 hxy with hxy | hxy <;>
      obtain ⟨rfl, rfl⟩ := Prod.mk.inj hxy
    · refine ⟨e.1, e.2, ?_, ?_, ?_⟩
      · exact (getElem?_eq_some_iff_idxOf_eq h.nodup_labels).2 ⟨h₁, rfl⟩
      · exact (getElem?_eq_some_iff_idxOf_eq h.nodup_labels).2 ⟨h₂, rfl⟩
      · rwa [Joins, min_eq_left hlt.le, max_eq_right hlt.le]
    · refine ⟨e.2, e.1, ?_, ?_, ?_⟩
      · exact (getElem?_eq_some_iff_idxOf_eq h.nodup_labels).2 ⟨h₂, rfl⟩
      · exact (getElem?_eq_some_iff_idxOf_eq h.nodup_labels).2 ⟨h₁, rfl⟩
      · rwa [Joins, min_eq_right hlt.le, max_eq_left hlt.le]
  · rintro ⟨u, v, hu, hv, huv⟩
    have hx : x < d.labels.length := (List.getElem?_eq_some_iff.1 hu).1
    obtain ⟨-, rfl⟩ := (getElem?_eq_some_iff_idxOf_eq h.nodup_labels).1 hu
    obtain ⟨-, rfl⟩ := (getElem?_eq_some_iff_idxOf_eq h.nodup_labels).1 hv
    rw [row_graph hx, List.filterMap_map, List.mem_filterMap]
    refine ⟨_, huv, (acrossFrom_eq_some_iff (hidx _ huv)).2 ?_⟩
    rcases le_total u v with hle | hle
    · exact Or.inl (by rw [min_eq_left hle, max_eq_right hle])
    · exact Or.inr (by rw [min_eq_right hle, max_eq_left hle])

theorem simple_graph (h : d.WellFormed) : d.graph.Simple where
  size_neighbours := by simp [graph, Graph.size]
  symm {x y} hy := by
    obtain ⟨u, v, hu, hv, huv⟩ := (mem_row_graph h).1 hy
    exact (mem_row_graph h).2 ⟨v, u, hv, hu, by rwa [Joins, min_comm, max_comm]⟩
  irrefl x hx := by
    obtain ⟨u, v, hu, hv, huv⟩ := (mem_row_graph h).1 hx
    obtain rfl : u = v := Option.some.inj (hu.symm.trans hv)
    -- Both ends of the collected edge would be `u`.
    exact absurd (h.ends_ascending _ huv) (by simp)

end Declarations

namespace Graph

variable {calls : List Declaration}

/-- **A declared graph is simple**, whatever the calls. -/
theorem simple_declared (calls : List Declaration) : (declared calls).Simple :=
  Declarations.simple_graph (Declarations.wellFormed_ofCalls calls)

/-- **Two variables are neighbours exactly if some call joins their labels.** -/
theorem mem_row_declared {x y : Variable} :
    y ∈ (declared calls).row x ↔ ∃ u v, (declared calls).labelOf x = .ok u ∧
      (declared calls).labelOf y = .ok v ∧ ∃ c ∈ calls, c.Joins u v := by
  simp only [declared, Declarations.labelOf_graph_eq_ok_iff, ← Declarations.joins_ofCalls]
  exact Declarations.mem_row_graph (Declarations.wellFormed_ofCalls calls)

/-- The labels of a declared graph are those that some call declares. -/
theorem mem_labels_declared {u : Label} :
    u ∈ (declared calls).labels.toList ↔ ∃ c ∈ calls, c.Names u := by
  rw [declared, Declarations.graph, Table.toList_ofList, Declarations.mem_labels_ofCalls]

/-- The labels of a declared graph are strictly ascending. -/
theorem pairwise_labels_declared (calls : List Declaration) :
    (declared calls).labels.toList.Pairwise (· < ·) := by
  rw [declared, Declarations.graph, Table.toList_ofList]
  exact (Declarations.wellFormed_ofCalls calls).labels_ascending

theorem nodup_labels_declared (calls : List Declaration) : (declared calls).labels.toList.Nodup :=
  (pairwise_labels_declared calls).imp fun hlt ↦ hlt.ne

end Graph

end GraphSearch.Colouring
