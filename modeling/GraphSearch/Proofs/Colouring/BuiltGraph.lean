import GraphSearch.Proofs.Colouring.Assembly
import Mathlib.Data.Set.Card
import Mathlib.Data.Sym.Sym2

/-!
# What a built graph records

Declarations collect in two sets, and building makes a graph of whatever the sets give back. The
result is told from the calls alone (`Graph.Records`): its labels are the declared ones in ascending
order, looking a label up undoes taking the label of a variable, and the neighbourhoods are
ascending lists of those variables whose labels some call joins.

Two of these facts need more than the graph itself. A neighbour may be looked for by bisection:
that is right wherever the neighbourhood ascends, whatever place is looked at next
(`bisect_eq_some_iff`). And the number that is kept with a graph is that of the unordered pairs that
have been joined (`Declarations.WellFormed.encard_joined`), since an edge is collected in one
orientation only.
-/

namespace GraphSearch

/-! ### Bisection -/

/-- The place among `low, …, high - 1` at which a bisection looks next. -/
def middle (probe : Nat → Nat → Nat) (low high : Nat) : Nat :=
  low + probe low high % (high - low)

theorem low_le_middle (probe : Nat → Nat → Nat) (low high : Nat) : low ≤ middle probe low high :=
  Nat.le_add_right ..

theorem middle_lt_high (probe : Nat → Nat → Nat) {low high : Nat} (h : low < high) :
    middle probe low high < high := by
  have hmod := Nat.mod_lt (probe low high) (Nat.sub_pos_of_lt h)
  rw [middle]
  omega

/-- The place of `y` among the places `low, …, high - 1` of an ascending row. -/
def bisect (probe : Nat → Nat → Nat) (row : List Nat) (y low high : Nat) : Option Nat :=
  if low < high then
    match row[middle probe low high]? with
    | none => none
    | some z =>
      if z < y then bisect probe row y (middle probe low high + 1) high
      else if y < z then bisect probe row y low (middle probe low high)
      else some (middle probe low high)
  else none
termination_by high - low
decreasing_by
  · have := low_le_middle probe low high
    omega
  · have := middle_lt_high probe ‹low < high›
    omega

/-- Smaller entries of an ascending row stand further to the left. -/
theorem lt_of_getElem?_lt {row : List Nat} (hrow : row.Pairwise (· < ·)) {i j y z : Nat}
    (hi : row[i]? = some y) (hj : row[j]? = some z) (hyz : y < z) : i < j := by
  obtain ⟨hi', rfl⟩ := List.getElem?_eq_some_iff.1 hi
  obtain ⟨hj', rfl⟩ := List.getElem?_eq_some_iff.1 hj
  rcases lt_trichotomy i j with hlt | rfl | hgt
  · exact hlt
  · exact absurd hyz (lt_irrefl _)
  · exact absurd (List.pairwise_iff_getElem.1 hrow j i hj' hi' hgt) hyz.not_gt

/-- **Bisection finds the place of an entry**, wherever it looks first. -/
theorem bisect_eq_some_iff (probe : Nat → Nat → Nat) {row : List Nat}
    (hrow : row.Pairwise (· < ·)) {y low high i : Nat} (hhigh : high ≤ row.length) :
    bisect probe row y low high = some i ↔ low ≤ i ∧ i < high ∧ row[i]? = some y := by
  fun_induction bisect probe row y low high with
  | case1 low high hlt hnone =>
    have := middle_lt_high probe hlt
    have := List.getElem?_eq_none_iff.1 hnone
    omega
  | case2 low high hlt z hz hzy ih =>
    -- What is sought stands to the right.
    have hlow := low_le_middle probe low high
    rw [ih hhigh]
    constructor
    · rintro ⟨hi, h⟩
      exact ⟨by omega, h⟩
    · rintro ⟨-, hi, hy⟩
      exact ⟨lt_of_getElem?_lt hrow hz hy hzy, hi, hy⟩
  | case3 low high hlt z hz _ hyz ih =>
    -- What is sought stands to the left.
    have hmiddle := middle_lt_high probe hlt
    rw [ih (hmiddle.le.trans hhigh)]
    constructor
    · rintro ⟨hi, hi', hy⟩
      exact ⟨hi, hi'.trans hmiddle, hy⟩
    · rintro ⟨hi, -, hy⟩
      exact ⟨hi, lt_of_getElem?_lt hrow hy hz hyz, hy⟩
  | case4 low high hlt z hz hzy hyz =>
    obtain rfl : z = y := by omega
    have hnodup : row.Nodup := hrow.imp fun h ↦ h.ne
    rw [Option.some.injEq]
    constructor
    · rintro rfl
      exact ⟨low_le_middle probe low high, middle_lt_high probe hlt, hz⟩
    · rintro ⟨-, -, hy⟩
      have hplace := (List.getElem?_eq_some_iff.1 hz).1
      exact (List.getElem?_inj hplace hnodup).1 (hz.trans hy.symm)
  | case5 low high hle =>
    constructor
    · rintro ⟨⟩
    · omega

/-- Bisection of a whole row tells whether there is such an entry. -/
theorem isSome_bisect (probe : Nat → Nat → Nat) {row : List Nat} (hrow : row.Pairwise (· < ·))
    (y : Nat) : (bisect probe row y 0 row.length).isSome = decide (y ∈ row) := by
  rw [Bool.eq_iff_iff, decide_eq_true_iff, Option.isSome_iff_exists, List.mem_iff_getElem?]
  refine exists_congr fun i ↦ ?_
  rw [bisect_eq_some_iff probe hrow le_rfl]
  exact ⟨fun h ↦ h.2.2, fun h ↦ ⟨i.zero_le, (List.getElem?_eq_some_iff.1 h).1, h⟩⟩

namespace Colouring

/-! ### Counting the joined pairs -/

/-- Two collected edges with the same ends are the same edge. -/
theorem Declarations.WellFormed.injOn_ends {d : Declarations} (h : d.WellFormed) :
    Set.InjOn (fun e : Label × Label ↦ s(e.1, e.2)) {e | e ∈ d.edges} := by
  intro e he f hf hef
  have he := h.ends_ascending e he
  have hf := h.ends_ascending f hf
  rcases Sym2.eq_iff.1 hef with ⟨h₁, h₂⟩ | ⟨h₁, h₂⟩
  · exact Prod.ext h₁ h₂
  · exact absurd (h₁ ▸ h₂ ▸ he) hf.not_gt

/-- **There are as many collected edges as unordered pairs that are joined.** -/
theorem Declarations.WellFormed.encard_joined {d : Declarations} (h : d.WellFormed)
    (hedges : d.edges.Nodup) :
    {e : Sym2 Label | ∃ u v, d.Joins u v ∧ e = s(u, v)}.encard = d.edges.length := by
  have himage : {e : Sym2 Label | ∃ u v, d.Joins u v ∧ e = s(u, v)} =
      (fun e : Label × Label ↦ s(e.1, e.2)) '' {e | e ∈ d.edges} := by
    ext e
    constructor
    · rintro ⟨u, v, huv, rfl⟩
      refine ⟨_, huv, Sym2.eq_iff.2 ?_⟩
      rcases le_total u v with hle | hle
      · exact Or.inl ⟨min_eq_left hle, max_eq_right hle⟩
      · exact Or.inr ⟨min_eq_right hle, max_eq_left hle⟩
    · rintro ⟨f, hf, rfl⟩
      exact ⟨f.1, f.2, (h.mem_edges_iff.1 hf).2, rfl⟩
  rw [himage, h.injOn_ends.encard_image, ← List.coe_toFinset, Set.encard_coe_eq_coe_finsetCard,
    List.toFinset_card_of_nodup hedges]

namespace Graph

/-! ### Adjacency by bisection -/

/-- Whether a bisection of the neighbours of `x` finds `y`. -/
def adjacentByBisection (probe : Nat → Nat → Nat) (g : Graph) (x y : Variable) :
    Except Fault Bool :=
  (fun row : List Variable ↦ (bisect probe row y 0 row.length).isSome) <$> g.neighboursOf x

/-- **A bisection gives the same answer as a search from the left** where the neighbourhoods ascend,
also past the end. -/
theorem adjacentByBisection_eq {g : Graph} (h : ∀ x, (g.row x).Pairwise (· < ·))
    (probe : Nat → Nat → Nat) (x y : Variable) :
    g.adjacentByBisection probe x y = g.adjacent x y := by
  rw [adjacentByBisection, adjacent]
  cases hx : g.neighboursOf x with
  | error e => rfl
  | ok row =>
    obtain ⟨-, rfl⟩ := neighboursOf_eq_ok_iff.1 hx
    have hsome := isSome_bisect probe (h x) y
    exact congrArg Except.ok (hsome.trans (head?_dropWhile_lt_eq (h x) y).symm)

/-! ### The record of the calls -/

/-- The graph records what the calls declare, and nothing else. -/
structure Records (g : Graph) (calls : List Declaration) : Prop where
  /-- The labels are strictly ascending. -/
  labels_ascending : g.labels.toList.Pairwise (· < ·)
  /-- The labels are the declared ones. -/
  mem_labels : ∀ u, u ∈ g.labels.toList ↔ ∃ c ∈ calls, c.Names u
  /-- Looking a label up is the inverse of taking the label of a variable. -/
  find_iff : ∀ u x, g.find? u = some x ↔ g.labelOf x = .ok u
  /-- The labels that are looked up in vain are those that are not declared. -/
  find_none_iff : ∀ u, g.find? u = none ↔ ¬∃ c ∈ calls, c.Names u
  /-- Every variable has a label and neighbours. -/
  exists_label : ∀ x < g.size, ∃ u row, g.labelOf x = .ok u ∧ g.neighboursOf x = .ok row
  /-- Neighbours are strictly ascending. -/
  ascending : ∀ x row, g.neighboursOf x = .ok row → row.Pairwise (· < ·)
  /-- Neighbours are neighbours of each other. -/
  symmetric : ∀ x row, g.neighboursOf x = .ok row →
    ∀ y ∈ row, ∃ row', g.neighboursOf y = .ok row' ∧ x ∈ row'
  /-- No variable is its own neighbour. -/
  irreflexive : ∀ x row, g.neighboursOf x = .ok row → x ∉ row
  /-- The neighbours are the variables to whose labels some call joins the label, in either
  orientation. -/
  mem_neighbours : ∀ x row, g.neighboursOf x = .ok row → ∀ y, y ∈ row ↔
    ∃ u v, g.labelOf x = .ok u ∧ g.labelOf y = .ok v ∧ ∃ c ∈ calls, c.Joins u v
  /-- Looking for a neighbour finds it. -/
  adjacent_iff : ∀ x row, g.neighboursOf x = .ok row → ∀ y, g.adjacent x y = .ok (decide (y ∈ row))
  /-- So does a bisection, wherever it looks first. -/
  bisection_eq : ∀ probe x y, g.adjacentByBisection probe x y = g.adjacent x y
  /-- As many edges are counted as there are unordered pairs that some call joins. -/
  encard_joined : {e : Sym2 Label | ∃ u v, (∃ c ∈ calls, c.Joins u v) ∧ e = s(u, v)}.encard =
    g.edgeCount

theorem find?_eq_none_iff {g : Graph} {u : Label} : g.find? u = none ↔ u ∉ g.labels.toList := by
  rw [find?, List.idxOf?_eq_none_iff]

/-- A declared graph records the calls. -/
theorem records_declared (calls : List Declaration) : (declared calls).Records calls where
  labels_ascending := pairwise_labels_declared calls
  mem_labels _ := mem_labels_declared
  find_iff _ _ := (represents_declared calls).find?_eq_some_iff
  find_none_iff _ := find?_eq_none_iff.trans (not_congr mem_labels_declared)
  exists_label x hx := ⟨_, _, (Table.get_eq_ok_iff_getD 0).2 ⟨hx, rfl⟩,
    (simple_declared calls).neighboursOf_eq_ok hx⟩
  ascending x row hrow := by
    obtain ⟨-, rfl⟩ := neighboursOf_eq_ok_iff.1 hrow
    exact (represents_declared calls).row_ascending x
  symmetric x row hrow y hy := by
    obtain ⟨-, rfl⟩ := neighboursOf_eq_ok_iff.1 hrow
    have hg := simple_declared calls
    exact ⟨_, hg.neighboursOf_eq_ok (hg.lt_size_right hy), hg.symm hy⟩
  irreflexive x row hrow := by
    obtain ⟨-, rfl⟩ := neighboursOf_eq_ok_iff.1 hrow
    exact (simple_declared calls).irrefl x
  mem_neighbours x row hrow y := by
    obtain ⟨-, rfl⟩ := neighboursOf_eq_ok_iff.1 hrow
    exact mem_row_declared
  adjacent_iff x row hrow y := by
    obtain ⟨hx, rfl⟩ := neighboursOf_eq_ok_iff.1 hrow
    exact adjacent_eq_ok (represents_declared calls).row_ascending hx y
  bisection_eq := adjacentByBisection_eq (represents_declared calls).row_ascending
  encard_joined := by
    have hnodup := Declarations.nodup_of_pairwise_edgeBefore
      (Declarations.pairwise_edges_ofCalls calls)
    simp only [← Declarations.joins_ofCalls]
    exact (Declarations.wellFormed_ofCalls calls).encard_joined hnodup

end Graph

namespace Declarations

/-- Nothing but a self loop is refused, and its vertex is reported. -/
theorem addEdge_eq_error_iff {d : Declarations} {u v : Label} {e : SelfLoop} :
    d.addEdge u v = .error e ↔ u = v ∧ e = ⟨u⟩ := by
  constructor
  · intro he
    by_cases huv : u = v
    · subst huv
      exact ⟨rfl, (Except.error.inj ((addEdge_self d u).symm.trans he)).symm⟩
    · rw [addEdge_of_ne d huv] at he
      cases he
  · rintro ⟨rfl, rfl⟩
    exact addEdge_self d u

/-- A self loop among the calls leaves no trace. -/
theorem ofCalls_append_edge_self (calls rest : List Declaration) (u : Label) :
    ofCalls (calls ++ .edge u u :: rest) = ofCalls (calls ++ rest) := by
  rw [ofCalls, ofCalls, List.foldl_append, List.foldl_append, List.foldl_cons, record_edge_self]

end Declarations

namespace Graph

/-- **The built graph is exactly what was declared.** Whatever the calls are, a self loop is refused
and leaves no trace, the graph is put together without a fault in whatever order the sets give
labels and edges back, and it records the calls. -/
theorem built_records (calls : List Declaration) :
    (∀ u v e, (Declarations.ofCalls calls).addEdge u v = .error e ↔ u = v ∧ e = ⟨u⟩) ∧
      (∀ u rest, Declarations.ofCalls (calls ++ .edge u u :: rest) =
        Declarations.ofCalls (calls ++ rest)) ∧
      (∀ labels edges, labels.Perm (Declarations.ofCalls calls).labels →
        edges.Perm (Declarations.ofCalls calls).edges →
        assemble labels edges = .ok (declared calls)) ∧
      (declared calls).Records calls := by
  refine ⟨fun _ _ _ ↦ Declarations.addEdge_eq_error_iff,
    fun u rest ↦ Declarations.ofCalls_append_edge_self calls rest u, ?_, records_declared calls⟩
  intro labels edges hlabels hedges
  exact Declarations.assemble_eq_ok (Declarations.wellFormed_ofCalls calls)
    (Declarations.pairwise_edges_ofCalls calls) hlabels hedges

/-- A path of three vertices, one of its edges declared in both orientations, with a self loop among
the calls: put together in descending order it is the graph of the calls, and two unordered pairs
are joined. -/
theorem built_records_descending :
    assemble [7, 3, 1] [(3, 7), (1, 3)] =
        .ok (declared [.edge 3 1, .edge 2 2, .edge 7 3, .edge 1 3]) ∧
      {e : Sym2 Label | ∃ u v, (∃ c ∈ [Declaration.edge 3 1, .edge 2 2, .edge 7 3, .edge 1 3],
        c.Joins u v) ∧ e = s(u, v)}.encard = 2 := by
  obtain ⟨-, -, hassemble, hrecords⟩ := built_records [.edge 3 1, .edge 2 2, .edge 7 3, .edge 1 3]
  exact ⟨hassemble _ _ (by decide) (by decide), hrecords.encard_joined⟩

end Graph

end Colouring

end GraphSearch
