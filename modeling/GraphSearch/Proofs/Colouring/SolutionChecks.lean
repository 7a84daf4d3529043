import GraphSearch.Proofs.Colouring.AnySelectors
import GraphSearch.Proofs.Colouring.AscendingGraph

/-!
# Checking a solution against any graph

A solution keeps labels and colours by the numbers of its own graph, and the checks read it by the
numbers of whatever graph they are given. That does no harm: the first check passes exactly if the
labels of the two graphs are the same, and then the same number means the same label in both, since
labels are numbered in ascending order.

So the second check lists the collected edges of the other graph of which both ends have the same
colour (`violated_ofColouring_declared`), in the order in which they are collected, and together the
checks are exact (`checks_exact`): they pass if and only if the solution is a proper colouring of
the other graph.
-/

namespace GraphSearch.Colouring

open Search

variable {calls calls' : List Declaration} {g : Graph} {f : Variable → Colour}

/-! ### The colour of a label -/

/-- Among pairs with different labels the one with a given label is found. -/
theorem find?_eq_some_of_mem {l : List (Label × Colour)} (hl : (l.map Prod.fst).Nodup)
    {q : Label × Colour} (hq : q ∈ l) : l.find? (fun p ↦ p.1 == q.1) = some q := by
  induction l with
  | nil => cases hq
  | cons p l ih =>
    obtain ⟨hp, hl⟩ := List.nodup_cons.1 hl
    rcases List.mem_cons.1 hq with rfl | hq
    · simp
    · have hne : p.1 ≠ q.1 := fun heq ↦ hp (heq ▸ List.mem_map_of_mem hq)
      rw [List.find?_cons_of_neg (by simpa using hne), ih hl hq]

namespace Solution

/-- Looking up the label of a pair gives its colour. -/
theorem colourOfLabel?_eq_some_of_mem {s : Solution} (hs : (s.pairs.map Prod.fst).Nodup)
    {q : Label × Colour} (hq : q ∈ s.pairs) : s.colourOfLabel? q.1 = some q.2 := by
  rw [colourOfLabel?, find?_eq_some_of_mem hs hq, Option.map_some]

theorem nodup_labels_ofColouring (calls : List Declaration) (f : Variable → Colour) :
    ((ofColouring (.declared calls) f).pairs.map Prod.fst).Nodup := by
  rw [map_fst_pairs_ofColouring]
  exact Graph.nodup_labels_declared calls

/-- The label of a variable has the colour of the variable. -/
theorem colourOfLabel?_labelAt {x : Variable} (hx : x < (Graph.declared calls).size) :
    (ofColouring (.declared calls) f).colourOfLabel? ((Graph.declared calls).labelAt x) =
      some (f x) := by
  have hmem : ((Graph.declared calls).labelAt x, f x) ∈
      (ofColouring (.declared calls) f).pairs := by
    rw [pairs_ofColouring]
    exact List.mem_map_of_mem (List.mem_range.2 hx)
  exact colourOfLabel?_eq_some_of_mem (nodup_labels_ofColouring calls f) hmem

end Solution

/-! ### Graphs with the same labels -/

namespace Graph

/-- Two declared graphs have the same list of labels if the same labels are declared. -/
theorem labels_declared_eq_iff :
    (declared calls).labels.toList = (declared calls').labels.toList ↔
      ∀ u, (∃ c ∈ calls', c.Names u) ↔ ∃ c ∈ calls, c.Names u := by
  constructor
  · intro hlabels u
    rw [← mem_labels_declared, ← mem_labels_declared, hlabels]
  · intro hnames
    refine (pairwise_labels_declared calls).eq_of_mem_iff (pairwise_labels_declared calls')
      fun u ↦ ?_
    rw [mem_labels_declared, mem_labels_declared, hnames]

/-- The labels of the edges are the collected edges. -/
theorem map_labelAt_edges_declared (calls : List Declaration) :
    ((declared calls).edges.map fun e ↦
      ((declared calls).labelAt e.1, (declared calls).labelAt e.2)) =
        (Declarations.ofCalls calls).edges := by
  have hwell := Declarations.wellFormed_ofCalls calls
  have hedges : (declared calls).edges = (Declarations.ofCalls calls).numberedEdges :=
    Declarations.edges_graph hwell (Declarations.pairwise_edges_ofCalls calls)
  have hlabel : ∀ u ∈ (Declarations.ofCalls calls).labels,
      (declared calls).labelAt ((Declarations.ofCalls calls).labels.idxOf u) = u := fun u hu ↦ by
    have hu := (labelOf_eq_ok_iff.1 (labelOf_idxOf (Declarations.mem_labels_ofCalls.1 hu))).2
    rwa [declared, Declarations.graph, Table.toList_ofList, eq_comm] at hu
  rw [hedges, Declarations.numberedEdges, List.map_map]
  refine (List.map_congr_left fun e he ↦ ?_).trans (List.map_id _)
  obtain ⟨h₁, h₂⟩ := hwell.ends_mem e he
  exact Prod.ext (hlabel _ h₁) (hlabel _ h₂)

end Graph

namespace Solution

/-- **Against a graph with the same labels the second check lists the collected edges both of whose
ends have the same colour.** -/
theorem violated_ofColouring_declared
    (hlabels : (Graph.declared calls).labels.toList = (Graph.declared calls').labels.toList) :
    (ofColouring (.declared calls) f).violated (.declared calls') =
      .ok ((Declarations.ofCalls calls').edges.filter fun e ↦
        (ofColouring (.declared calls) f).colourOfLabel? e.1 =
          (ofColouring (.declared calls) f).colourOfLabel? e.2) := by
  have hg := Graph.simple_declared calls'
  have hsize := Graph.size_eq_of_labels_eq hlabels
  have hlabel : (Graph.declared calls').labelAt = (Graph.declared calls).labelAt :=
    funext fun x ↦ by rw [Graph.labelAt, Graph.labelAt, Table.getD, Table.getD, hlabels]
  rw [violated_ofColouring_eq_ok hg hsize.ge, ← Graph.map_labelAt_edges_declared, List.filter_map]
  refine congrArg (Except.ok ∘ List.map _) (List.filter_congr fun e he ↦ ?_)
  have hrow := (Graph.mem_edges.1 he).1
  dsimp only [Function.comp_apply]
  rw [hlabel, colourOfLabel?_labelAt (hsize.symm ▸ hg.lt_size_left hrow),
    colourOfLabel?_labelAt (hsize.symm ▸ hg.lt_size_right hrow)]
  simp

/-! ### What the checks decide -/

/-- A search of the graph gives the solution, with the selectors that the options stand for or with
any others. -/
inductive FoundFor (g : Graph) (s : Solution) : Prop where
  /-- The options choose the selectors. -/
  | solve {k : Nat} {o : Options} {r : Run} (hr : solve g k o = .ok r) (hs : r.solution = some s)
  /-- The selectors are any. -/
  | solveWith {σ : Type} {k : Nat} {strategy : Strategy σ} {memory : σ} {narrow : Bool} {r : Run}
    (hr : solveWith g k strategy memory narrow = .ok r) (hs : r.solution = some s)

/-- What is found for a graph is a colouring of its variables. -/
theorem FoundFor.exists_eq_ofColouring {s : Solution} (h : s.FoundFor g) (hg : g.Simple) :
    ∃ f, s = .ofColouring g f := by
  cases h with
  | solve hr hs =>
    obtain ⟨r', hr', h⟩ := bind_eq_ok_iff.1 hr
    obtain rfl := Except.ok.inj h
    obtain ⟨f, -, -, -, -, -, hf⟩ := exists_colouring_of_solveWith (r := r') hg hr' hs
    exact ⟨f, hf⟩
  | solveWith hr hs =>
    obtain ⟨f, -, -, -, -, -, hf⟩ := exists_colouring_of_solveWith hg hr hs
    exact ⟨f, hf⟩

/-- The pairs of the solution are a complete proper colouring of what the calls declare. -/
structure IsColouringOf (s : Solution) (calls : List Declaration) : Prop where
  /-- No label has two colours. -/
  nodup : (s.pairs.map Prod.fst).Nodup
  /-- The labels that have a colour are the declared ones. -/
  mem_labels : ∀ u, u ∈ s.pairs.map Prod.fst ↔ ∃ c ∈ calls, c.Names u
  /-- The ends of a declared edge have different colours. -/
  proper : ∀ q ∈ s.pairs, ∀ r ∈ s.pairs, (∃ c ∈ calls, c.Joins q.1 r.1) → q.2 ≠ r.2

/-- The solution lists what it should of the edges with equal colours. -/
structure ListsViolations (s : Solution) (calls : List Declaration)
    (violations : List (Label × Label)) : Prop where
  /-- The listed edges are strictly ascending in lexicographic order. -/
  ascending : violations.Pairwise (Prod.Lex (· < ·) (· < ·))
  /-- They are the declared edges whose ends have the same colour, the smaller end first. -/
  mem_iff : ∀ a b, (a, b) ∈ violations ↔
    a < b ∧ (∃ c ∈ calls, c.Joins a b) ∧ s.colourOfLabel? a = s.colourOfLabel? b

theorem listsViolations_filter (s : Solution) (calls : List Declaration) :
    s.ListsViolations calls ((Declarations.ofCalls calls).edges.filter fun e ↦
      s.colourOfLabel? e.1 = s.colourOfLabel? e.2) where
  ascending := ((Declarations.pairwise_edges_ofCalls calls).imp fun hef ↦
    Prod.lex_def.2 (Declarations.edgeBefore_iff.1 hef)).filter _
  mem_iff a b := by
    rw [List.mem_filter, (Declarations.wellFormed_ofCalls calls).mem_edges_iff,
      Declarations.joins_ofCalls, decide_eq_true_iff, and_assoc]

/-- Where the labels are the declared ones, no violation is listed exactly if the ends of declared
edges have different colours. -/
theorem ListsViolations.eq_nil_iff {s : Solution} {violations : List (Label × Label)}
    (h : s.ListsViolations calls violations) (hnodup : (s.pairs.map Prod.fst).Nodup)
    (hlabels : ∀ u, u ∈ s.pairs.map Prod.fst ↔ ∃ c ∈ calls, c.Names u) :
    violations = [] ↔ s.IsColouringOf calls := by
  constructor
  · rintro rfl
    refine ⟨hnodup, hlabels, fun q hq r hr ⟨c, hc, hjoins⟩ hqr ↦ ?_⟩
    have hcolour : s.colourOfLabel? q.1 = s.colourOfLabel? r.1 := by
      rw [colourOfLabel?_eq_some_of_mem hnodup hq, colourOfLabel?_eq_some_of_mem hnodup hr, hqr]
    rcases lt_or_gt_of_ne hjoins.1 with hlt | hgt
    · exact List.not_mem_nil ((h.mem_iff _ _).2 ⟨hlt, ⟨c, hc, hjoins⟩, hcolour⟩)
    · exact List.not_mem_nil ((h.mem_iff _ _).2 ⟨hgt, ⟨c, hc, hjoins.symm⟩, hcolour.symm⟩)
  · intro hcolouring
    refine List.eq_nil_iff_forall_not_mem.2 fun ⟨a, b⟩ hab ↦ ?_
    obtain ⟨-, ⟨c, hc, hjoins⟩, hcolour⟩ := (h.mem_iff a b).1 hab
    obtain ⟨q, hq, rfl⟩ := List.mem_map.1 ((hlabels a).2 ⟨c, hc, Or.inr ⟨b, hjoins⟩⟩)
    obtain ⟨r, hr, rfl⟩ := List.mem_map.1 ((hlabels b).2 ⟨c, hc, Or.inr ⟨_, hjoins.symm⟩⟩)
    rw [colourOfLabel?_eq_some_of_mem hnodup hq, colourOfLabel?_eq_some_of_mem hnodup hr] at hcolour
    exact hcolouring.proper q hq r hr ⟨c, hc, hjoins⟩ (Option.some.inj hcolour)

/-- **The checks of a solution are exact on any graph.** Of a solution that was found for one graph,
the first check tells whether the other graph has the same labels. If so, the second check meets no
fault either, and lists the edges of the other graph whose ends have the same colour. So both checks
pass exactly if the solution is a complete proper colouring of the other graph. -/
theorem checks_exact (calls calls' : List Declaration) (s : Solution)
    (hs : s.FoundFor (.declared calls)) :
    (∃ same, s.isCompleteFor (.declared calls') = .ok same ∧
      (same = true ↔ ∀ u, (∃ c ∈ calls', c.Names u) ↔ ∃ c ∈ calls, c.Names u)) ∧
      (s.isCompleteFor (.declared calls') = .ok true →
        ∃ violations, s.violated (.declared calls') = .ok violations ∧
          s.ListsViolations calls' violations) ∧
      (s.isCompleteFor (.declared calls') = .ok true ∧ s.violated (.declared calls') = .ok [] ↔
        s.IsColouringOf calls') := by
  obtain ⟨f, rfl⟩ := hs.exists_eq_ofColouring (Graph.simple_declared calls)
  have hcomplete := isCompleteFor_ofColouring_eq_ok (.declared calls) (.declared calls') f
  have hlabels : (ofColouring (.declared calls) f).isCompleteFor (.declared calls') = .ok true →
      (Graph.declared calls).labels.toList = (Graph.declared calls').labels.toList := fun h ↦
    of_decide_eq_true (Except.ok.inj (hcomplete.symm.trans h))
  have hviolations := listsViolations_filter (ofColouring (.declared calls) f) calls'
  refine ⟨⟨_, hcomplete, decide_eq_true_iff.trans Graph.labels_declared_eq_iff⟩,
    fun h ↦ ⟨_, violated_ofColouring_declared (hlabels h), hviolations⟩, ?_, ?_⟩
  · rintro ⟨h, hnone⟩
    have hnil := Except.ok.inj ((violated_ofColouring_declared (hlabels h)).symm.trans hnone)
    refine (hviolations.eq_nil_iff (nodup_labels_ofColouring calls f) fun u ↦ ?_).1 hnil
    rw [map_fst_pairs_ofColouring, hlabels h, Graph.mem_labels_declared]
  · intro hcolouring
    have hsame : (Graph.declared calls).labels.toList = (Graph.declared calls').labels.toList := by
      refine Graph.labels_declared_eq_iff.2 fun u ↦ ?_
      rw [← hcolouring.mem_labels, map_fst_pairs_ofColouring, Graph.mem_labels_declared]
    have hnil := (hviolations.eq_nil_iff hcolouring.nodup hcolouring.mem_labels).2 hcolouring
    exact ⟨hcomplete.trans (by rw [decide_eq_true hsame]),
      (violated_ofColouring_declared hsame).trans (by rw [hnil])⟩

/-- An edge and a third vertex are coloured, and the solution is checked against a graph that has
its edge elsewhere: the labels are the same, but the ends of that edge have the same colour, and so
the second check does not pass. -/
theorem checks_exact_elsewhere :
    ∃ s, FoundFor (.declared [.edge 1 2, .vertex 3]) s ∧
      s.isCompleteFor (.declared [.edge 3 1, .vertex 2]) = .ok true ∧
      s.violated (.declared [.edge 3 1, .vertex 2]) = .ok [(1, 3)] ∧
      ¬s.IsColouringOf [.edge 3 1, .vertex 2] := by
  have hsolved : Run.solution <$> Colouring.solve (Graph.declared [.edge 1 2, .vertex 3]) 2 {} =
      .ok (some ⟨.ofList [1, 2, 3], .ofList [1, 2, 1]⟩) := by cbv
  obtain ⟨r, hr, hs⟩ := map_eq_ok_iff.1 hsolved
  have hfound := FoundFor.solve hr hs
  obtain ⟨-, -, hexact⟩ := checks_exact _ [.edge 3 1, .vertex 2] _ hfound
  refine ⟨_, hfound, by decide +kernel, by decide +kernel, fun hcolouring ↦ ?_⟩
  exact absurd (hexact.2 hcolouring).2 (by decide +kernel)

end Solution

end GraphSearch.Colouring
