import GraphSearch.Colouring.Solver
import GraphSearch.Proofs.Colouring.Completions

/-!
# What solving gives

A colouring of a declared graph is a map from labels to colours (`IsColouring`), and a search knows
variables only. The two agree (`IsColouring.completes`, `Completes.isColouring`): the labels of a
declared graph are numbered without repetition, and a colouring completes the root of a search,
where every domain is the whole palette and nothing is assigned, exactly if it is a colouring of the
labels.

So `solve` meets no fault and gives a solution exactly if there is a colouring, whatever the options
say (`exists_solveWith_eq_ok`). The solution pairs the labels in their order with the colours of
their variables, and nothing is lost on the way, since every variable of a complete assignment has a
colour.
-/

namespace GraphSearch.Colouring

open Search

variable {calls : List Declaration} {g : Graph} {k : Nat} {f : Variable → Colour} {x : Variable}

/-! ### Labels and variables -/

theorem Store.mem_coloursAt_full {n : Nat} {c : Colour} (hx : x < n) :
    c ∈ (full n k).coloursAt x ↔ 1 ≤ c ∧ c ≤ k := by
  rw [coloursAt_full k hx, List.mem_range'_1, Nat.lt_one_add_iff]

/-- The label of a variable, with a default past the end. -/
def Graph.labelAt (g : Graph) (x : Variable) : Label := g.labels.getD x 0

theorem Graph.labelOf_eq_ok_iff {u : Label} :
    g.labelOf x = .ok u ↔ x < g.size ∧ u = g.labelAt x :=
  Table.get_eq_ok_iff_getD 0

/-- The label of a variable of a declared graph is declared. -/
theorem Graph.exists_names_labelAt (hx : x < (declared calls).size) :
    ∃ c ∈ calls, c.Names ((declared calls).labelAt x) := by
  rw [← mem_labels_declared]
  exact List.mem_of_getElem? (Table.get_eq_ok_iff.1 (labelOf_eq_ok_iff.2 ⟨hx, rfl⟩))

/-- A declared label is that of the variable whose number is its place. -/
theorem Graph.labelOf_idxOf {u : Label} (hu : ∃ c ∈ calls, c.Names u) :
    (declared calls).labelOf ((declared calls).labels.toList.idxOf u) = .ok u := by
  rw [labelOf, Table.get_eq_ok_iff, getElem?_eq_some_iff_idxOf_eq (nodup_labels_declared calls)]
  exact ⟨mem_labels_declared.2 hu, rfl⟩

/-! ### Colourings by label -/

/-- The map uses the palette of size `k` and gives joined labels different colours. -/
structure IsColouring (F : Label → Colour) (calls : List Declaration) (k : Nat) : Prop where
  /-- Declared labels get colours of the palette. -/
  palette : ∀ c ∈ calls, ∀ u, c.Names u → 1 ≤ F u ∧ F u ≤ k
  /-- The ends of a declared edge get different colours. -/
  proper : ∀ c ∈ calls, ∀ u v, c.Joins u v → F u ≠ F v

/-- What a search for a colouring starts from can be completed by each of them. -/
theorem IsColouring.completes {F : Label → Colour} (h : IsColouring F calls k) :
    Completes (fun x ↦ F ((Graph.declared calls).labelAt x)) (Graph.declared calls)
      (.full (Graph.declared calls).size k) (.blank (Graph.declared calls).size) where
  proper x y hy := by
    obtain ⟨u, v, hu, hv, c, hc, hjoins⟩ := Graph.mem_row_declared.1 hy
    obtain ⟨-, rfl⟩ := Graph.labelOf_eq_ok_iff.1 hu
    obtain ⟨-, rfl⟩ := Graph.labelOf_eq_ok_iff.1 hv
    exact h.proper c hc _ _ hjoins
  extends_assignment x c hx := by
    rw [Assignment.colourAt_blank] at hx
    cases hx
  within x hx := by
    obtain ⟨c, hc, hnames⟩ := Graph.exists_names_labelAt hx
    exact (Store.mem_coloursAt_full hx).2 (h.palette c hc _ hnames)

/-- What completes the start of a search is a colouring of the labels. -/
theorem Search.Completes.isColouring {a : Assignment}
    (h : Completes f (Graph.declared calls) (.full (Graph.declared calls).size k) a) :
    IsColouring (fun u ↦ f ((Graph.declared calls).labels.toList.idxOf u)) calls k where
  palette c hc u hu := by
    have hx := (Graph.labelOf_eq_ok_iff.1 (Graph.labelOf_idxOf ⟨c, hc, hu⟩)).1
    exact (Store.mem_coloursAt_full hx).1 (h.within _ hx)
  proper c hc u v huv := by
    refine h.proper _ _ (Graph.mem_row_declared.2 ⟨u, v, ?_, ?_, c, hc, huv⟩)
    · exact Graph.labelOf_idxOf ⟨c, hc, Or.inr ⟨v, huv⟩⟩
    · exact Graph.labelOf_idxOf ⟨c, hc, Or.inr ⟨u, huv.symm⟩⟩

/-! ### Solutions -/

namespace Solution

/-- The labels of a graph, each with the colour of its variable. -/
def ofColouring (g : Graph) (f : Variable → Colour) : Solution :=
  ⟨.ofList ((List.range g.size).map g.labelAt), .ofList ((List.range g.size).map f)⟩

theorem pairs_ofColouring (g : Graph) (f : Variable → Colour) :
    (ofColouring g f).pairs = (List.range g.size).map fun x ↦ (g.labelAt x, f x) := by
  rw [pairs, ofColouring, Table.toList_ofList, Table.toList_ofList, List.zip_map']

theorem map_fst_pairs_ofColouring (g : Graph) (f : Variable → Colour) :
    (ofColouring g f).pairs.map Prod.fst = g.labels.toList := by
  rw [pairs_ofColouring, List.map_map, Table.toList_eq_map_getD _ 0]
  rfl

/-- A complete assignment amounts to a solution that drops no variable. -/
theorem ofAssignment_eq_ok {a : Assignment} (hcomplete : a.isComplete = true)
    (hcolour : ∀ x < g.size, a.colourAt x = some (f x)) :
    ofAssignment g a = .ok (ofColouring g f) := by
  have hentry : ∀ x ∈ g.allVariables, entry g a x = .ok (some (g.labelAt x, f x)) := by
    intro x hx
    have hx : x < g.size := Context.mem_allVariables.1 hx
    have hxa := Assignment.lt_size_of_colourAt_eq_some (hcolour x hx)
    rw [entry, Assignment.colourOf_eq_ok hxa, ok_bind, hcolour x hx]
    dsimp only
    rw [Graph.labelOf_eq_ok_iff.2 ⟨hx, rfl⟩]
    rfl
  have hentries : g.allVariables.filterMapM (entry g a) =
      .ok ((List.range g.size).map fun x ↦ (g.labelAt x, f x)) := by
    rw [filterMapM_eq_ok hentry]
    exact congrArg _ (List.filterMap_eq_map_iff_forall_eq_some.2 fun x _ ↦ rfl)
  rw [ofAssignment, if_pos hcomplete]
  dsimp only
  rw [hentries, ok_bind, List.map_map, List.map_map]
  rfl

theorem colourOf_ofColouring (f : Variable → Colour) (hx : x < g.size) :
    (ofColouring g f).colourOf x = .ok (f x) := by
  rw [colourOf, Table.get_eq_ok_iff, ofColouring, Table.toList_ofList, List.getElem?_map,
    List.getElem?_range hx]
  rfl

/-- A solution is complete for exactly the graphs that have the labels of its own. -/
theorem isCompleteFor_ofColouring_eq_ok (g h : Graph) (f : Variable → Colour) :
    (ofColouring g f).isCompleteFor h = .ok (decide (g.labels.toList = h.labels.toList)) := by
  have hsize : (ofColouring g f).size = g.size := by simp [size, ofColouring]
  rw [isCompleteFor, hsize]
  by_cases hgh : g.size = h.size
  · have hlabel : ∀ x ∈ h.allVariables, (do
        let u ← (ofColouring g f).labels.get x
        return u == (← h.labelOf x)) = (.ok (g.labelAt x == h.labelAt x) : Except Fault Bool) := by
      intro x hx
      have hx := Context.mem_allVariables.1 hx
      have hget : (ofColouring g f).labels.get x = .ok (g.labelAt x) := by
        rw [Table.get_eq_ok_iff, ofColouring, Table.toList_ofList, List.getElem?_map,
          List.getElem?_range (hgh ▸ hx)]
        rfl
      rw [hget, ok_bind, Graph.labelOf_eq_ok_iff.2 ⟨hx, rfl⟩]
      rfl
    have hlists : g.labels.toList = h.labels.toList ↔
        ∀ x ∈ h.allVariables, g.labelAt x = h.labelAt x := by
      have hsizes : g.labels.size = h.labels.size := hgh
      rw [Table.toList_eq_map_getD g.labels 0, Table.toList_eq_map_getD h.labels 0, hsizes,
        List.map_inj_left]
      rfl
    rw [if_neg (not_not.2 hgh), allM_eq_ok hlabel]
    refine congrArg Except.ok (Bool.eq_iff_iff.2 ?_)
    simp only [List.all_eq_true, beq_iff_eq, decide_eq_true_iff, hlists]
  · rw [if_pos hgh, decide_eq_false fun hlists ↦ hgh (Graph.size_eq_of_labels_eq hlists)]

/-- A solution is complete for the graph for which it was found. -/
theorem isCompleteFor_ofColouring (g : Graph) (f : Variable → Colour) :
    (ofColouring g f).isCompleteFor g = .ok true := by
  rw [isCompleteFor_ofColouring_eq_ok, decide_eq_true rfl]

/-- Of a graph with no more variables the edges with equal colours are listed. -/
theorem violated_ofColouring_eq_ok {h : Graph} (hh : h.Simple) (hsize : h.size ≤ g.size)
    (f : Variable → Colour) :
    (ofColouring g f).violated h = .ok ((h.edges.filter fun e ↦ f e.1 = f e.2).map
      fun e ↦ (h.labelAt e.1, h.labelAt e.2)) := by
  have hedge : ∀ e ∈ h.edges, (ofColouring g f).violation? h e =
      .ok (if f e.1 = f e.2 then some (h.labelAt e.1, h.labelAt e.2) else none) := by
    intro e he
    have hrow := (Graph.mem_edges.1 he).1
    have h₁ := hh.lt_size_left hrow
    have h₂ := hh.lt_size_right hrow
    rw [violation?, colourOf_ofColouring f (h₁.trans_le hsize), ok_bind,
      colourOf_ofColouring f (h₂.trans_le hsize), ok_bind, Graph.labelOf_eq_ok_iff.2 ⟨h₁, rfl⟩,
      Graph.labelOf_eq_ok_iff.2 ⟨h₂, rfl⟩]
    split <;> rfl
  rw [violated, filterMapM_eq_ok hedge, ← List.filterMap_eq_map, List.filterMap_filter]
  simp

/-- A proper colouring violates no edge of its graph. -/
theorem violated_ofColouring (hg : g.Simple) (hf : g.IsProper f) :
    (ofColouring g f).violated g = .ok [] := by
  have hnone : (g.edges.filter fun e ↦ f e.1 = f e.2) = [] :=
    List.filter_eq_nil_iff.2 fun e he ↦ by simpa using hf _ _ (Graph.mem_edges.1 he).1
  rw [violated_ofColouring_eq_ok hg le_rfl, hnone, List.map_nil]

/-- The solution is a colouring of what the calls declare, in ascending order of the labels. -/
structure Solves (s : Solution) (calls : List Declaration) (k : Nat) : Prop where
  /-- The labels are strictly ascending. -/
  ascending : (s.pairs.map Prod.fst).Pairwise (· < ·)
  /-- The labels are those that were declared. -/
  mem_labels : ∀ u, u ∈ s.pairs.map Prod.fst ↔ ∃ c ∈ calls, c.Names u
  /-- The colours are of the palette. -/
  palette : ∀ q ∈ s.pairs, 1 ≤ q.2 ∧ q.2 ≤ k
  /-- The ends of a declared edge have different colours. -/
  proper : ∀ q ∈ s.pairs, ∀ r ∈ s.pairs, (∃ c ∈ calls, c.Joins q.1 r.1) → q.2 ≠ r.2

/-- What completes the start of a search solves what was declared. -/
theorem solves_ofColouring {a : Assignment}
    (h : Completes f (Graph.declared calls) (.full (Graph.declared calls).size k) a) :
    (ofColouring (Graph.declared calls) f).Solves calls k := by
  refine ⟨?_, ?_, ?_, ?_⟩
  · rw [map_fst_pairs_ofColouring]
    exact Graph.pairwise_labels_declared calls
  · intro u
    rw [map_fst_pairs_ofColouring, Graph.mem_labels_declared]
  · intro q hq
    rw [pairs_ofColouring, List.mem_map] at hq
    obtain ⟨x, hx, rfl⟩ := hq
    have hx := List.mem_range.1 hx
    exact (Store.mem_coloursAt_full hx).1 (h.within x hx)
  · intro q hq r hr hjoins
    rw [pairs_ofColouring, List.mem_map] at hq hr
    obtain ⟨x, hx, rfl⟩ := hq
    obtain ⟨y, hy, rfl⟩ := hr
    refine h.proper x y (Graph.mem_row_declared.2 ⟨_, _, ?_, ?_, hjoins⟩)
    · exact Graph.labelOf_eq_ok_iff.2 ⟨List.mem_range.1 hx, rfl⟩
    · exact Graph.labelOf_eq_ok_iff.2 ⟨List.mem_range.1 hy, rfl⟩

end Solution

/-! ### Solving -/

/-- The search that the options stand for. -/
def Options.problem (o : Options) (g : Graph) : Problem Memory := ⟨g, o.strategy, o.narrow⟩

/-- The state from which a graph is searched. -/
def Search.State.root (g : Graph) : State Memory := { assignment := .blank g.size, memory := {} }

theorem Context.fits_full_blank (hg : g.Simple) (k : Nat) :
    Context.Fits ⟨g, .full g.size k, .blank g.size⟩ :=
  ⟨hg, Store.size_full _ _, Table.size_filled .., Assignment.coherent_blank _⟩

/-- What a run of the solver says is that of the search from the root, with selectors of any kind.
-/
theorem of_solveWith_eq_ok {σ : Type} (hg : g.Simple) {strategy : Strategy σ} {memory : σ}
    {narrow : Bool} {r : Run} (h : solveWith g k strategy memory narrow = .ok r) :
    ∃ tried found t, Explores ⟨g, strategy, narrow⟩ .node (.full g.size k)
        { assignment := .blank g.size, memory } tried found t ∧
      r.statistics = t.statistics ∧
      (found = false → r.solution = none) ∧
      (found = true → ∃ s, Solution.ofAssignment g t.assignment = .ok s ∧ r.solution = some s) := by
  obtain ⟨⟨found, t⟩, hrun, hr⟩ := bind_eq_ok_iff.1 h
  have hfits := Context.fits_full_blank hg k
  obtain ⟨tried, hexplores⟩ := (run_eq_ok_iff hfits.size_store hfits.coherent).1 hrun
  refine ⟨tried, found, t, hexplores, ?_⟩
  cases found with
  | false =>
    obtain rfl := Except.ok.inj hr
    exact ⟨rfl, fun _ ↦ rfl, nofun⟩
  | true =>
    obtain ⟨s, hs, hr⟩ := bind_eq_ok_iff.1 hr
    obtain rfl := Except.ok.inj hr
    exact ⟨rfl, nofun, fun _ ↦ ⟨s, hs, rfl⟩⟩

/-- What a run of the solver says is that of the search from the root. -/
theorem of_solve_eq_ok (hg : g.Simple) {o : Options} {r : Run} (h : solve g k o = .ok r) :
    ∃ tried found t, Explores (o.problem g) .node (.full g.size k) (.root g) tried found t ∧
      r.statistics = t.statistics ∧
      (found = false → r.solution = none) ∧
      (found = true → ∃ s, Solution.ofAssignment g t.assignment = .ok s ∧ r.solution = some s) := by
  obtain ⟨r', hr', h⟩ := bind_eq_ok_iff.1 h
  obtain rfl := Except.ok.inj h
  exact of_solveWith_eq_ok (r := r') hg hr'

/-- **Solving with lawful selectors meets no fault**, and gives a solution exactly if what the
search starts from can be completed. -/
theorem exists_solveWith_eq_ok {σ : Type} (hg : g.Simple) {strategy : Strategy σ} {I : σ → Prop}
    (hstrategy : strategy.KeepsContracts g I) {memory : σ} (hmemory : I memory) (narrow : Bool) :
    ∃ r, solveWith g k strategy memory narrow = .ok r ∧
      (r.solution = none → ¬∃ f, Completes f g (.full g.size k) (.blank g.size)) ∧
      (∀ s, r.solution = some s → ∃ f, Completes f g (.full g.size k) (.blank g.size) ∧
        s = .ofColouring g f) := by
  have hfits := Context.fits_full_blank hg k
  obtain ⟨found, t, hrun, hiff, hfound⟩ := exists_run_eq_ok (p := ⟨g, strategy, narrow⟩)
    (s := { assignment := .blank g.size, memory }) hstrategy hfits hmemory
    (Assignment.isProper_blank _ g) fun x c hx ↦ by
      rw [Assignment.colourAt_blank] at hx
      cases hx
  rw [solveWith, hrun, ok_bind]
  cases found with
  | false =>
    refine ⟨_, rfl, ?_, nofun⟩
    intro _ hf
    cases hiff.2 hf
  | true =>
    obtain ⟨f, hf, hcolour⟩ := hfound rfl
    -- That the assignment is complete is read off the tree of the search.
    obtain ⟨_, hexplores⟩ := (run_eq_ok_iff hfits.size_store hfits.coherent).1 hrun
    have hcomplete := (hexplores.effect.2 rfl).2
    dsimp only
    rw [if_pos rfl, Solution.ofAssignment_eq_ok hcomplete hcolour]
    refine ⟨_, rfl, nofun, ?_⟩
    rintro s ⟨⟩
    exact ⟨f, hf, rfl⟩

/-- What the options stand for solves as any lawful strategy does. -/
theorem exists_solve_eq_ok (calls : List Declaration) (k : Nat) (o : Options) :
    ∃ r, solve (Graph.declared calls) k o = .ok r ∧
      (r.solution = none → ¬∃ F, IsColouring F calls k) ∧
      (∀ s, r.solution = some s → s.Solves calls k ∧ ∃ F, IsColouring F calls k) := by
  obtain ⟨r, hr, hnone, hsome⟩ := exists_solveWith_eq_ok (k := k) (Graph.simple_declared calls)
    (o.keepsContracts _) rfl o.narrow
  refine ⟨{ r with events := .searching o.variableSelection o.valueSelection :: r.events }, ?_,
    ?_, ?_⟩
  · rw [solve, hr]
    rfl
  · rintro h ⟨F, hF⟩
    exact hnone h ⟨_, hF.completes⟩
  · intro s hs
    obtain ⟨f, hf, rfl⟩ := hsome s hs
    exact ⟨Solution.solves_ofColouring hf, _, hf.isColouring⟩

/-- **The solver is complete.** Whatever is declared, whatever the palette and the options are, it
answers, and says that there is no solution exactly if no map from the labels to the palette gives
different colours to the ends of every declared edge. -/
theorem solve_eq_none_iff (calls : List Declaration) (k : Nat) (o : Options) :
    ∃ r, solve (Graph.declared calls) k o = .ok r ∧
      (r.solution = none ↔ ¬∃ F, IsColouring F calls k) := by
  obtain ⟨r, hr, hnone, hsome⟩ := exists_solve_eq_ok calls k o
  refine ⟨r, hr, hnone, ?_⟩
  intro hF
  cases hs : r.solution with
  | none => rfl
  | some s => exact absurd (hsome s hs).2 hF

/-- **The solver is sound.** Whatever is declared, whatever the palette and the options are, it
answers, and a solution lists every declared label once, in strictly ascending order, with colours
of the palette that differ at the ends of every declared edge. -/
theorem solve_solves (calls : List Declaration) (k : Nat) (o : Options) :
    ∃ r, solve (Graph.declared calls) k o = .ok r ∧
      ∀ s, r.solution = some s → s.Solves calls k := by
  obtain ⟨r, hr, -, hsome⟩ := exists_solve_eq_ok calls k o
  exact ⟨r, hr, fun s hs ↦ (hsome s hs).1⟩

end GraphSearch.Colouring
