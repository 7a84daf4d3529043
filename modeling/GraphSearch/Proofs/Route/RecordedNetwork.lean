import GraphSearch.Proofs.Route.DeclaredNetwork
import Mathlib.Data.Set.Card

/-!
# What a network records

A network keeps the edges of its vertices in one table and their places in another, and each of the
two additions writes to both or to one. What is in them after a sequence of additions is told from
the calls alone, `Network.Records`: a vertex has the edges that the calls enter there, in the order
of the calls, and the place at which it was declared last.

An edge is entered at both of its ends, so an entry at one of them stands for one at the other. That
holds for each call by itself, whichever ends it has (`Addition.count_entriesAt`), and therefore for
parallel edges and for edges from a vertex to itself: `v` is listed at `u` as often as `u` at `v`,
with the same weights. The vertices are those that some call names, and their number is that of the
rows, since every call makes a row for each vertex that it names (`Network.contains_record`).
-/

namespace GraphSearch.Route

open Std (HashMap)

variable {n : Network} {c : Addition} {calls : List Addition} {u v : Vertex} {w : UInt32}
  {place : Coordinate}

namespace Addition

/-- The call names the vertex, by itself or as an end of an edge. -/
def Names (c : Addition) (v : Vertex) : Prop :=
  (∃ place, c = vertex v place) ∨ ∃ u w, c.Joins v u w

/-- The call declares a vertex, and no edge. -/
def isVertex : Addition → Bool
  | vertex _ _ => true
  | edge _ _ _ => false

theorem names_vertex_iff : (vertex u place).Names v ↔ v = u := by
  simp [Names, Joins, eq_comm]

theorem names_edge_iff {x : Vertex} : (edge u x w).Names v ↔ v = u ∨ v = x := by
  simp only [Names, Joins, reduceCtorEq, exists_false, false_or, edge.injEq]
  constructor
  · rintro ⟨_, _, ⟨rfl, -, -⟩ | ⟨-, rfl, -⟩⟩
    · exact Or.inl rfl
    · exact Or.inr rfl
  · rintro (rfl | rfl)
    · exact ⟨x, w, Or.inl ⟨rfl, rfl, rfl⟩⟩
    · exact ⟨u, w, Or.inr ⟨rfl, rfl, rfl⟩⟩

/-- A call enters an edge at a vertex once for each orientation in which it declares it. -/
theorem count_entriesAt (c : Addition) (u v : Vertex) (w : UInt32) :
    (c.entriesAt u).count ⟨v, w⟩ =
      (if c = edge u v w then 1 else 0) + if c = edge v u w then 1 else 0 := by
  cases c with
  | vertex x place => simp [entriesAt]
  | edge x y k =>
    have hfirst : (if x = u then [(⟨y, k⟩ : Edge)] else []).count ⟨v, w⟩ =
        if edge x y k = edge u v w then 1 else 0 := by
      by_cases hx : x = u <;> simp [hx, List.count_singleton]
    have hsecond : (if y = u then [(⟨x, k⟩ : Edge)] else []).count ⟨v, w⟩ =
        if edge x y k = edge v u w then 1 else 0 := by
      by_cases hy : y = u <;> simp [hy, List.count_singleton]
    rw [entriesAt, List.count_append, hfirst, hsecond]

theorem placeOf?_eq_some_iff : c.placeOf? v = some place ↔ c = vertex v place := by
  cases c with
  | vertex x p =>
    rw [placeOf?, Option.ite_none_right_eq_some, Option.some.injEq, vertex.injEq]
  | edge x y k => simp [placeOf?]

theorem placeOf?_eq_none_iff : c.placeOf? v = none ↔ ∀ place, c ≠ vertex v place := by
  simp only [Option.eq_none_iff_forall_ne_some, ne_eq, placeOf?_eq_some_iff]

end Addition

namespace Network

/-- What a network is to show of the calls that brought it about. -/
structure Records (n : Network) (calls : List Addition) : Prop where
  /-- The edges of a vertex are what the calls enter there, in the order of the calls. -/
  edgesOf_eq : ∀ u, n.edgesOf u = calls.flatMap (Addition.entriesAt u)
  /-- A vertex is listed at another one as often as that one at it, with the same weights. -/
  count_edgesOf_comm : ∀ u v w, (n.edgesOf u).count ⟨v, w⟩ = (n.edgesOf v).count ⟨u, w⟩
  /-- Edges lead to vertices of the network. -/
  contains_target : ∀ u, ∀ e ∈ n.edgesOf u, n.contains e.target = true
  /-- The vertices are those that some call names. -/
  contains_iff : ∀ v, n.contains v = true ↔ ∃ c ∈ calls, c.Names v
  /-- They are counted once each. -/
  encard_named : {v | ∃ c ∈ calls, c.Names v}.encard = n.size
  /-- The place of a vertex is the one at which it was declared last. -/
  coordinateOf_eq_some_iff : ∀ v place, n.coordinateOf v = some place ↔
    ∃ before after, calls = before ++ .vertex v place :: after ∧ ∀ p, .vertex v p ∉ after
  /-- A vertex that is not declared by itself has no place. -/
  coordinateOf_eq_none_iff : ∀ v, n.coordinateOf v = none ↔ ∀ place, .vertex v place ∉ calls
  /-- The places are the same if all edges are left out. -/
  coordinateOf_filter : ∀ v,
    n.coordinateOf v = (declared (calls.filter Addition.isVertex)).coordinateOf v

/-! ### The vertices -/

/-- A call adds the vertices that it names. -/
theorem contains_record : (n.record c).contains v = true ↔ c.Names v ∨ n.contains v = true := by
  cases c with
  | vertex x place =>
    show (n.rows.insertIfNew x #[]).contains v = true ↔ _
    rw [HashMap.contains_insertIfNew, Addition.names_vertex_iff, Bool.or_eq_true, beq_iff_eq,
      eq_comm (a := x)]
    rfl
  | edge x y k =>
    show ((n.enter x ⟨y, k⟩).rows.insert y _).contains v = true ↔ _
    rw [HashMap.contains_insert, Bool.or_eq_true, beq_iff_eq]
    show y = v ∨ (n.rows.insert x _).contains v = true ↔ _
    rw [HashMap.contains_insert, Addition.names_edge_iff, Bool.or_eq_true, beq_iff_eq,
      eq_comm (a := x), eq_comm (a := y), ← or_assoc, or_comm (a := v = y)]
    rfl

theorem contains_foldl_record : (calls.foldl record n).contains v = true ↔
    (∃ c ∈ calls, c.Names v) ∨ n.contains v = true := by
  induction calls generalizing n with
  | nil => simp
  | cons c calls ih =>
    rw [List.foldl_cons, ih, contains_record, List.exists_mem_cons_iff, or_assoc, or_left_comm]

/-- **The vertices are those that some call names.** -/
theorem contains_declared : (declared calls).contains v = true ↔ ∃ c ∈ calls, c.Names v := by
  rw [declared, contains_foldl_record]
  simp [contains]

/-- An edge leads to a vertex of the network. -/
theorem contains_of_joined (h : Joined calls u v w) : (declared calls).contains v = true := by
  obtain ⟨c, hc, hjoins⟩ := h
  exact contains_declared.2 ⟨c, hc, Or.inr ⟨u, w, hjoins.symm⟩⟩

/-- The size is the number of the vertices. -/
theorem encard_contains (n : Network) : {v | n.contains v = true}.encard = n.size := by
  have hkeys : {v | n.contains v = true} = (n.rows.keys.toFinset : Set Vertex) := by
    ext v
    rw [Finset.mem_coe, List.mem_toFinset, HashMap.mem_keys, HashMap.mem_iff_contains]
    rfl
  rw [hkeys, Set.encard_coe_eq_coe_finsetCard, List.toFinset_card_of_nodup HashMap.nodup_keys,
    HashMap.length_keys, size]

/-! ### The places -/

/-- A vertex has the place of the last call that declares it. -/
theorem coordinateOf_declared_eq_some_iff : (declared calls).coordinateOf v = some place ↔
    ∃ before after, calls = before ++ .vertex v place :: after ∧ ∀ p, .vertex v p ∉ after := by
  rw [coordinateOf_declared, List.findSome?_eq_some_iff]
  constructor
  · rintro ⟨after, c, before, hcalls, hc, hafter⟩
    obtain rfl := Addition.placeOf?_eq_some_iff.1 hc
    refine ⟨before.reverse, after.reverse, ?_, fun p hp ↦ ?_⟩
    · rw [← List.reverse_reverse calls, hcalls]
      simp
    · exact Addition.placeOf?_eq_none_iff.1 (hafter _ (List.mem_reverse.1 hp)) p rfl
  · rintro ⟨before, after, rfl, hafter⟩
    refine ⟨after.reverse, .vertex v place, before.reverse, by simp,
      Addition.placeOf?_eq_some_iff.2 rfl, fun c hc ↦ ?_⟩
    refine Addition.placeOf?_eq_none_iff.2 fun p hp ↦ ?_
    exact hafter p (hp ▸ List.mem_reverse.1 hc)

theorem coordinateOf_declared_eq_none_iff :
    (declared calls).coordinateOf v = none ↔ ∀ place, .vertex v place ∉ calls := by
  rw [coordinateOf_declared, List.findSome?_eq_none_iff]
  simp only [List.mem_reverse, Addition.placeOf?_eq_none_iff]
  exact ⟨fun h place hmem ↦ h _ hmem place rfl, fun h c hc place heq ↦ h place (heq ▸ hc)⟩

/-- Edges change no place. -/
theorem coordinateOf_declared_filter (calls : List Addition) (v : Vertex) :
    (declared (calls.filter Addition.isVertex)).coordinateOf v =
      (declared calls).coordinateOf v := by
  have hplace : (fun c : Addition ↦ if c.isVertex = true then c.placeOf? v else none) =
      Addition.placeOf? v := by
    funext c
    cases c <;> rfl
  rw [coordinateOf_declared, coordinateOf_declared, ← List.filter_reverse, ← List.head?_filterMap,
    ← List.head?_filterMap, List.filterMap_filter, hplace]

/-! ### The record -/

/-- **A network records its declarations, at both ends of each edge.** Whatever vertices and edges
are added, in any order and repeatedly, the edges of a vertex are those that the calls enter there,
in the order of the calls, each of them stands at its other end as well, and the place of a vertex
is the one at which it was declared last. -/
theorem declared_records_additions (calls : List Addition) : (declared calls).Records calls where
  edgesOf_eq := edgesOf_declared calls
  count_edgesOf_comm u v w := by
    simp only [edgesOf_declared, List.count_flatMap, Function.comp_def, Addition.count_entriesAt,
      add_comm]
  contains_target _ _ he := contains_of_joined (mem_edgesOf_declared.1 he)
  contains_iff _ := contains_declared
  encard_named := by
    rw [← encard_contains]
    simp only [contains_declared]
  coordinateOf_eq_some_iff _ _ := coordinateOf_declared_eq_some_iff
  coordinateOf_eq_none_iff _ := coordinateOf_declared_eq_none_iff
  coordinateOf_filter v := (coordinateOf_declared_filter calls v).symm

end Network

end GraphSearch.Route
