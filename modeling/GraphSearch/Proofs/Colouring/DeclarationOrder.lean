import GraphSearch.Colouring.Solver
import GraphSearch.Proofs.Colouring.Assembly
import GraphSearch.Proofs.Colouring.InstanceGrammar

/-!
# The order of declarations is irrelevant

Two texts may declare the same labels and edges in any order, more than once, with the ends of edges
exchanged, among comments and blanks, and with integers in other written forms. If both are read and
give the same number of colours, the instances are the same, so that every search of them has the
same result and counts the same steps (`parse_ignores_order`).

That the declarations are collected in sets makes no difference. A graph that is put together from
the declared labels and edges, as the sets happen to give them back, is the graph that is read
(`Instance.assemble_of_parse_eq_ok`): in each of the two orders, that of the text and that of the
sets, only what is declared counts.
-/

namespace GraphSearch.Colouring

open Text (Recites Source)

/-- **A graph of declared labels and edges is put together from them in any order.** -/
theorem Graph.assemble_eq_ok_declared {calls : List Declaration} {labels : List Label}
    {edges : List (Label × Label)} (hlabels : labels.Nodup) (hedges : edges.Nodup)
    (mem_labels : ∀ u, u ∈ labels ↔ ∃ c ∈ calls, c.Names u)
    (mem_edges : ∀ u v, (u, v) ∈ edges ↔ u < v ∧ ∃ c ∈ calls, c.Joins u v) :
    Graph.assemble labels edges = .ok (Graph.declared calls) := by
  have hwell := Declarations.wellFormed_ofCalls calls
  have hpairwise := Declarations.pairwise_edges_ofCalls calls
  refine Declarations.assemble_eq_ok hwell hpairwise ?_ ?_
  · refine (List.perm_ext_iff_of_nodup hlabels hwell.nodup_labels).2 fun u ↦ ?_
    rw [mem_labels, Declarations.mem_labels_ofCalls]
  · refine (List.perm_ext_iff_of_nodup hedges
      (Declarations.nodup_of_pairwise_edgeBefore hpairwise)).2 fun e ↦ ?_
    rw [mem_edges, hwell.mem_edges_iff, Declarations.joins_ofCalls]

namespace Instance

variable {source : Source} {i : Instance}

/-- A source that is read as an instance has nothing but lines that can be read. -/
theorem exists_lines_of_parse_eq_ok (h : parse source = .ok i) :
    ∃ lines : List (List Char), source.lines = lines.map .ok := by
  obtain ⟨d, hrun, -⟩ := parse_eq_ok_iff_exists_draft.1 h
  exact follows_readEntry.exists_lines_of_run_eq_ok hrun

theorem represents_of_parse_eq_ok (h : parse source = .ok i) :
    i.graph.Represents (DeclaresLabel source) (DeclaresEdge source) := by
  obtain ⟨lines, hlines⟩ := exists_lines_of_parse_eq_ok h
  exact ((parse_eq_ok_iff hlines).1 h).2

/-- The graph of an instance that is read is that of declarations which declare what the lines of
the source do. -/
theorem exists_calls_of_parse_eq_ok (h : parse source = .ok i) :
    ∃ calls, i.graph = .declared calls ∧
      (∀ u, DeclaresLabel source u ↔ ∃ c ∈ calls, c.Names u) ∧
      ∀ u v, DeclaresEdge source u v ↔ ∃ c ∈ calls, c.Joins u v := by
  obtain ⟨lines, hlines⟩ := exists_lines_of_parse_eq_ok h
  obtain ⟨⟨said, hsaid, -⟩, hgraph⟩ := (parse_eq_ok_iff hlines).1 h
  exact ⟨declarations said, hgraph.unique (represents_of_recites hlines hsaid),
    fun _ ↦ declaresLabel_iff hlines hsaid, fun _ _ ↦ declaresEdge_iff hlines hsaid⟩

/-- **Texts that declare the same make the same graph.** -/
theorem graph_eq_of_parse_eq_ok {source' : Source} {i' : Instance} (h : parse source = .ok i)
    (h' : parse source' = .ok i') (hlabels : ∀ u, DeclaresLabel source u ↔ DeclaresLabel source' u)
    (hedges : ∀ u v, DeclaresEdge source u v ↔ DeclaresEdge source' u v) :
    i.graph = i'.graph := by
  have hlabel : DeclaresLabel source' = DeclaresLabel source :=
    funext fun u ↦ propext (hlabels u).symm
  have hedge : DeclaresEdge source' = DeclaresEdge source :=
    funext₂ fun u v ↦ propext (hedges u v).symm
  have hgraph' := represents_of_parse_eq_ok h'
  rw [hlabel, hedge] at hgraph'
  exact (represents_of_parse_eq_ok h).unique hgraph'

/-- The lists give the labels and edges that lines of the source declare back once each, in some
order, and edges with their smaller end first. -/
structure Enumerates (labels : List Label) (edges : List (Label × Label)) (source : Source) :
    Prop where
  /-- No label comes twice. -/
  nodup_labels : labels.Nodup
  /-- No edge comes twice. -/
  nodup_edges : edges.Nodup
  /-- The labels are the declared ones. -/
  mem_labels : ∀ u, u ∈ labels ↔ DeclaresLabel source u
  /-- The edges are the declared ones. -/
  mem_edges : ∀ u v, (u, v) ∈ edges ↔ u < v ∧ DeclaresEdge source u v

/-- **The sets may give back what they hold in any order.** -/
theorem assemble_of_parse_eq_ok (h : parse source = .ok i) {labels : List Label}
    {edges : List (Label × Label)} (hsets : Enumerates labels edges source) :
    Graph.assemble labels edges = .ok i.graph := by
  obtain ⟨calls, hgraph, hlabels, hedges⟩ := exists_calls_of_parse_eq_ok h
  rw [hgraph]
  refine Graph.assemble_eq_ok_declared hsets.nodup_labels hsets.nodup_edges ?_ ?_
  · exact fun u ↦ (hsets.mem_labels u).trans (hlabels u)
  · exact fun u v ↦ (hsets.mem_edges u v).trans (and_congr_right fun _ ↦ hedges u v)

/-- **The order of declarations is irrelevant.** Two texts that are read, give the same number of
colours and declare the same labels and edges are the same instance, whatever order their sets give
labels and edges back in, and every search of the one is a search of the other. -/
theorem parse_ignores_order (source source' : Source) (i i' : Instance)
    (h : parse source = .ok i) (h' : parse source' = .ok i') (hpalette : i.palette = i'.palette)
    (hlabels : ∀ u, DeclaresLabel source u ↔ DeclaresLabel source' u)
    (hedges : ∀ u v, DeclaresEdge source u v ↔ DeclaresEdge source' u v) :
    i = i' ∧
      (∀ labels edges labels' edges', Enumerates labels edges source →
        Enumerates labels' edges' source' →
        Graph.assemble labels edges = .ok i.graph ∧ Graph.assemble labels' edges' = .ok i.graph) ∧
      (∀ u x, i'.graph.find? u = some x ↔ i.graph.labelOf x = .ok u) ∧
      ∀ o, solve i.graph i.palette o = solve i'.graph i'.palette o := by
  have hgraph : i.graph = i'.graph := graph_eq_of_parse_eq_ok h h' hlabels hedges
  refine ⟨?_, ?_, fun u x ↦ ?_, fun o ↦ by rw [hgraph, hpalette]⟩
  · obtain ⟨graph, palette⟩ := i
    obtain ⟨graph', palette'⟩ := i'
    exact congrArg₂ Instance.mk hgraph hpalette
  · intro labels edges labels' edges' hsets hsets'
    exact ⟨assemble_of_parse_eq_ok h hsets, hgraph ▸ assemble_of_parse_eq_ok h' hsets'⟩
  · rw [← hgraph]
    exact (represents_of_parse_eq_ok h).find?_eq_some_iff

/-- An edge and a vertex, and the same in another order, with the ends of the edge exchanged, a
plus, a leading zero and a repetition: the instances are the same, sets may give the labels back in
any order, and searches agree. -/
theorem parse_ignores_order_exchanged :
    ∃ i i', parse (.ofString "colors=2\n1,2\n7") = .ok i ∧
      parse (.ofString "#\n7\n2 , +1\n01,2\ncolors=02") = .ok i' ∧ i = i' ∧
      Graph.assemble [7, 2, 1] [(1, 2)] = .ok i'.graph ∧
      solve i.graph i.palette {} = solve i'.graph i'.palette {} := by
  have hlines : (Source.ofString "colors=2\n1,2\n7").lines =
      [paletteKey ++ ['=', '2'], ['1', ',', '2'], ['7']].map .ok := by decide +kernel
  have hlines' : (Source.ofString "#\n7\n2 , +1\n01,2\ncolors=02").lines =
      [['#'], ['7'], ['2', ' ', ',', ' ', '+', '1'], ['0', '1', ',', '2'],
        paletteKey ++ ['=', '0', '2']].map .ok := by decide +kernel
  have hvertex : Means ['7'] (.declares (.vertex 7)) := .vertex (by decide)
  have hsaid : Recites Means [paletteKey ++ ['=', '2'], ['1', ',', '2'], ['7']]
      [.palette 2, .declares (.edge 1 2), .declares (.vertex 7)] := by
    have hsize : Means (paletteKey ++ '=' :: ['2']) (.palette 2) :=
      .palette (by decide) (by decide)
    have hedge : Means (['1'] ++ ',' :: ['2']) (.declares (.edge 1 2)) :=
      .edge (by decide) (by decide) (by decide)
    exact .spoken (by decide) hsize (.spoken (by decide) hedge (.spoken (by decide) hvertex .nil))
  have hsaid' : Recites Means [['#'], ['7'], ['2', ' ', ',', ' ', '+', '1'], ['0', '1', ',', '2'],
      paletteKey ++ ['=', '0', '2']]
      [.declares (.vertex 7), .declares (.edge 2 1), .declares (.edge 1 2), .palette 2] := by
    have hexchanged : Means (['2', ' '] ++ ',' :: [' ', '+', '1']) (.declares (.edge 2 1)) :=
      .edge (by decide) (by decide) (by decide)
    have hedge : Means (['0', '1'] ++ ',' :: ['2']) (.declares (.edge 1 2)) :=
      .edge (by decide) (by decide) (by decide)
    have hsize : Means (paletteKey ++ '=' :: ['0', '2']) (.palette 2) :=
      .palette (by decide) (by decide)
    exact .silent (by decide) (.spoken (by decide) hvertex (.spoken (by decide) hexchanged
      (.spoken (by decide) hedge (.spoken (by decide) hsize .nil))))
  have hparse : parse (.ofString "colors=2\n1,2\n7") =
      .ok ⟨.declared [.edge 1 2, .vertex 7], 2⟩ := by decide +kernel
  have hparse' : parse (.ofString "#\n7\n2 , +1\n01,2\ncolors=02") =
      .ok ⟨.declared [.vertex 7, .edge 2 1, .edge 1 2], 2⟩ := by decide +kernel
  have hlabels : ∀ u, DeclaresLabel (.ofString "colors=2\n1,2\n7") u ↔
      DeclaresLabel (.ofString "#\n7\n2 , +1\n01,2\ncolors=02") u := fun u ↦ by
    rw [declaresLabel_iff hlines hsaid, declaresLabel_iff hlines' hsaid',
      ← Declarations.mem_labels_ofCalls, ← Declarations.mem_labels_ofCalls]
    exact Iff.rfl
  have hedges : ∀ u v, DeclaresEdge (.ofString "colors=2\n1,2\n7") u v ↔
      DeclaresEdge (.ofString "#\n7\n2 , +1\n01,2\ncolors=02") u v := fun u v ↦ by
    rw [declaresEdge_iff hlines hsaid, declaresEdge_iff hlines' hsaid',
      ← Declarations.joins_ofCalls, ← Declarations.joins_ofCalls]
    exact Iff.rfl
  have hsets : Enumerates [7, 2, 1] [(1, 2)] (.ofString "colors=2\n1,2\n7") := by
    refine ⟨by decide, by decide, fun u ↦ ?_, fun u v ↦ ?_⟩
    · rw [declaresLabel_iff hlines hsaid, ← Declarations.mem_labels_ofCalls]
      show u ∈ [7, 2, 1] ↔ u ∈ [1, 2, 7]
      exact List.Perm.mem_iff (by decide)
    · rw [declaresEdge_iff hlines hsaid, ← Declarations.joins_ofCalls,
        ← (Declarations.wellFormed_ofCalls _).mem_edges_iff (e := (u, v))]
      exact Iff.rfl
  have hsets' : Enumerates [7, 2, 1] [(1, 2)] (.ofString "#\n7\n2 , +1\n01,2\ncolors=02") :=
    ⟨hsets.nodup_labels, hsets.nodup_edges, fun u ↦ (hsets.mem_labels u).trans (hlabels u),
      fun u v ↦ (hsets.mem_edges u v).trans (and_congr_right fun _ ↦ hedges u v)⟩
  obtain ⟨heq, hassemble, -, hsolve⟩ :=
    parse_ignores_order _ _ _ _ hparse hparse' rfl hlabels hedges
  exact ⟨_, _, hparse, hparse', heq, heq ▸ (hassemble _ _ _ _ hsets hsets').2, hsolve {}⟩

end Instance

end GraphSearch.Colouring
