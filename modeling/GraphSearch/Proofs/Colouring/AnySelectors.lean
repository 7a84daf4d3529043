import GraphSearch.Proofs.Colouring.Solving
import Mathlib

/-!
# Searching with any selectors

Nothing is asked of the selectors here. They may remember things, choose variables that have a
colour, give up early, leave colours out, repeat them, or name some that are in no domain. What can
still be said of a search rests on three parts of it alone: a decision is taken only where no
neighbour contradicts it, a variable is decided only once, and what is taken back is the decision
that was taken last.

* A search that fails leaves the assignment as it was, and one that succeeds adds decisions at the
  end of the trail (`run_leaves_no_trace`). Both are read off `Explores.effect`.
* The check on what is taken back never fails. A search ends only in the faults of its selectors, or
  because it reads past the end of a table, decides a variable twice, or was given the wrong number
  of domains (`faultsWithin_run`).
* A search that starts from a proper assignment and succeeds leaves a proper colouring of the whole
  graph, so that every solution passes its own checks (`solveWith_passes_checks`).
-/

namespace GraphSearch.Colouring

open Relation Search

/-! ### Faults of the parts of a search -/

section Faults

variable {P : Fault → Prop} (hindex : ∀ l i, P (.indexOutOfRange l i))

include hindex

theorem Graph.faultsWithin_neighboursOf (g : Graph) (x : Variable) :
    FaultsWithin P (g.neighboursOf x) :=
  Table.faultsWithin_get hindex _ _

namespace Store

theorem faultsWithin_domainOf (s : Store) (x : Variable) : FaultsWithin P (s.domainOf x) :=
  Table.faultsWithin_get hindex _ _

theorem faultsWithin_narrow (s : Store) (x : Variable) (c : Colour) :
    FaultsWithin P (s.narrow x c) :=
  (faultsWithin_domainOf hindex s x).bind fun _ _ ↦
    (Table.faultsWithin_set hindex _ _ _).bind fun _ _ ↦ .ok _

theorem faultsWithin_revise (s : Store) (a : Arc) : FaultsWithin P (s.revise a) := by
  refine (faultsWithin_domainOf hindex s _).bind fun support _ ↦ ?_
  refine (faultsWithin_domainOf hindex s _).bind fun target _ ↦ ?_
  dsimp only
  split
  · exact .ok _
  · exact (Table.faultsWithin_set hindex _ _ _).bind fun _ _ ↦ .ok _

end Store

/-- However long the list of arcs gets, working it off ends in no other fault than that of reading
past the end of a table. -/
theorem Propagation.faultsWithin_drain (g : Graph) (pending : List Arc) (s : Store)
    (k : Propagation.Statistics) : FaultsWithin P (drain g pending s k) := by
  induction pending, s, k using drain.induct with
  | case1 s k =>
    rw [drain]
    exact .ok _
  | case2 s k a rest e he =>
    rw [drain_of_revise_error he]
    exact .error (Store.faultsWithin_revise hindex s a e he)
  | case3 s k a rest t hrevise ih =>
    rw [drain_of_revise_zero hrevise]
    exact ih
  | case4 s k a rest n t hrevise k' ih =>
    rw [drain_of_revise_pos hrevise]
    refine (Store.faultsWithin_domainOf hindex t _).map.bind fun empty _ ↦ ?_
    cases empty with
    | true => exact .ok _
    | false => exact (Graph.faultsWithin_neighboursOf hindex g _).bind fun row _ ↦ ih row

theorem faultsWithin_propagate (g : Graph) (s : Store) (k : Propagation.Statistics) :
    FaultsWithin P (propagate g s k) :=
  Propagation.faultsWithin_drain hindex _ _ _ _

namespace Assignment

theorem faultsWithin_colourOf (a : Assignment) (x : Variable) : FaultsWithin P (a.colourOf x) :=
  Table.faultsWithin_get hindex _ _

theorem faultsWithin_isConsistent (a : Assignment) (g : Graph) (x : Variable) (c : Colour) :
    FaultsWithin P (a.isConsistent g x c) :=
  (Graph.faultsWithin_neighboursOf hindex g x).bind fun row _ ↦
    .allM row fun y ↦ (faultsWithin_colourOf hindex a y).map

theorem faultsWithin_assign (htwice : ∀ x, P (.assignedTwice x)) (a : Assignment) (x : Variable)
    (c : Colour) : FaultsWithin P (a.assign x c) := by
  refine (faultsWithin_colourOf hindex a x).map.bind fun assigned _ ↦ ?_
  cases assigned with
  | true => exact .error (htwice x)
  | false => exact (Table.faultsWithin_set hindex _ _ _).bind fun _ _ ↦ .ok _

end Assignment

namespace Search

variable {σ : Type} {p : Problem σ}

theorem faultsWithin_attempt (htwice : ∀ x, P (.assignedTwice x)) (store : Store) (x : Variable)
    (c : Colour) (s : State σ) : FaultsWithin P (attempt p store x c s) := by
  rw [attempt_eq]
  refine (Assignment.faultsWithin_assign hindex htwice _ x c).bind fun a _ ↦ ?_
  have hbranch : FaultsWithin P (p.branch store x c) := by
    rw [Problem.branch]
    split
    · exact (Store.faultsWithin_narrow hindex store x c).map
    · exact .ok _
  refine hbranch.bind fun d _ ↦ ?_
  exact (faultsWithin_propagate hindex p.graph d _).bind fun o _ ↦ .ok _

/-- Trying colours ends in no other fault than what is searched below, if a search below that fails
gives the assignment back as it was: then what is taken back is the decision just tried. -/
theorem faultsWithin_tryColours (htwice : ∀ x, P (.assignedTwice x)) {descend : Continuation σ}
    {n : Nat}
    (hdescend : ∀ d (u : State σ), u.assignment.Coherent → u.assignment.free = n →
      FaultsWithin P (descend d u) ∧
        ∀ v, descend d u = .ok (false, v) → v.assignment = u.assignment)
    (store : Store) (x : Variable) (cs : List Colour) (s : State σ) (hs : s.assignment.Coherent)
    (hfree : s.assignment.free = n + 1) :
    FaultsWithin P (tryColours p (.consistent p.graph) descend store x cs s) := by
  induction cs generalizing s with
  | nil => exact .ok _
  | cons c cs ih =>
    rw [tryColours]
    refine (Assignment.faultsWithin_isConsistent hindex _ p.graph x c).bind fun consistent _ ↦ ?_
    cases consistent with
    | false => exact ih s hs hfree
    | true =>
      refine (faultsWithin_attempt hindex htwice store x c s).bind ?_
      rintro ⟨branch, u⟩ hattempt
      have hassign := (of_attempt_eq_ok hattempt).1
      -- Whoever gives the assignment of the child back, the decision is taken back without a fault.
      have hrest : ∀ v : State σ, v.assignment = u.assignment →
          FaultsWithin P
            (retract x c v >>= tryColours p (.consistent p.graph) descend store x cs) := by
        intro v hv
        rw [retract_eq_ok (hv ▸ hassign), ok_bind]
        exact ih _ hs hfree
      cases branch with
      | none => exact hrest u rfl
      | some d =>
        have hu : u.assignment.free = n := by
          have := hs.free_of_assign hassign
          omega
        obtain ⟨hfaults, hback⟩ := hdescend d u (hs.assign hassign) hu
        refine hfaults.bind ?_
        rintro ⟨found, v⟩ hbelow
        cases found with
        | true => exact .ok _
        | false => exact hrest v (hback v hbelow)

/-- **The faults of a search.** It reads past the end of a table, decides a variable twice, was
given the wrong number of domains, or one of its selectors ends in a fault. It never finds that a
decision was taken back out of turn. -/
theorem faultsWithin_run (htwice : ∀ x, P (.assignedTwice x)) (hmismatch : P .storeMismatch)
    (hselect : ∀ ctx m, FaultsWithin P (p.strategy.selectVariable ctx m))
    (horder : ∀ ctx x m, FaultsWithin P (p.strategy.orderColours ctx x m)) (store : Store)
    (s : State σ) (hs : s.assignment.Coherent) : FaultsWithin P (run p store s) := by
  have hbacktrack : ∀ n store (s : State σ), s.assignment.Coherent → s.assignment.free = n →
      FaultsWithin P (backtrack p (.consistent p.graph) n store s) := by
    intro n
    induction n with
    | zero =>
      intro store s hs hfree
      rw [backtrack, expand, if_pos (hs.isComplete_iff_free.2 hfree)]
      exact .ok _
    | succ n ih =>
      intro store s hs hfree
      have hincomplete := hs.isComplete_eq_false_iff.2 (hfree ▸ Nat.succ_pos n)
      rw [backtrack, expand_of_incomplete hincomplete]
      refine (hselect _ _).bind fun r _ ↦ ?_
      cases r.choice with
      | none => exact .ok _
      | some x =>
        refine (horder _ x _).bind ?_
        rintro ⟨cs, m⟩ -
        refine faultsWithin_tryColours hindex htwice (fun d u hu hn ↦ ⟨ih d u hu hn, ?_⟩) store x cs
          _ hs hfree
        intro v hv
        obtain ⟨_, hexplores⟩ := exists_explores_of_backtrack hu hn hv
        exact hexplores.effect.1 rfl
  rw [run]
  split
  · exact .error hmismatch
  · exact hbacktrack _ store s hs rfl

end Search

end Faults

/-! ### What a search leaves behind -/

/-- One of the selectors answers some question with the fault. -/
def Strategy.Raises {σ : Type} (strategy : Strategy σ) (e : Fault) : Prop :=
  (∃ ctx m, strategy.selectVariable ctx m = .error e) ∨
    ∃ ctx x m, strategy.orderColours ctx x m = .error e

namespace Search

variable {σ : Type} {p : Problem σ} {store : Store} {s t : State σ} {tried : List Assignment}
  {found : Bool}

/-- Whatever a search answers, it has explored its root. -/
theorem exists_explores_of_run (hs : s.assignment.Coherent)
    (h : run p store s = .ok (found, t)) :
    ∃ tried, Explores p .node store s tried found t := by
  have hstore : store.size = p.graph.size := by
    by_contra hne
    rw [run, if_pos hne] at h
    cases h
  exact (run_eq_ok_iff hstore hs).1 h

/-- **A search leaves no trace unless it succeeds.** With any selectors, from any assignment that
arises and on any domains: if it fails, the assignment is what it was, to the order of its
decisions. If it succeeds, every variable of the assignment has a colour, the decisions stand on the
trail after the earlier ones, and the earlier colours are what they were. And it never takes another
decision back than the one just tried: a run that ends in that fault has it from a selector. -/
theorem run_leaves_no_trace {σ : Type} (p : Problem σ) (store : Store) (s : State σ) (n : Nat)
    (harises : s.assignment.Arises n) :
    (∀ t, run p store s = .ok (false, t) → t.assignment = s.assignment) ∧
      (∀ t, run p store s = .ok (true, t) →
        t.assignment.isComplete = true ∧ (∀ x < n, ∃ c, t.assignment.colourAt x = some c) ∧
        (∃ new, t.assignment.trail = s.assignment.trail ++ new ∧
          ∀ q ∈ new, s.assignment.colourAt q.1 = none) ∧
        ∀ x c, s.assignment.colourAt x = some c → t.assignment.colourAt x = some c) ∧
      ∀ x c, run p store s = .error (.undoMismatch x c) →
        p.strategy.Raises (.undoMismatch x c) := by
  obtain ⟨hcoherent, hsize⟩ := harises.coherent
  refine ⟨?_, ?_, ?_⟩
  · intro t hrun
    obtain ⟨_, hexplores⟩ := exists_explores_of_run hcoherent hrun
    exact hexplores.effect.1 rfl
  · intro t hrun
    obtain ⟨_, hexplores⟩ := exists_explores_of_run hcoherent hrun
    obtain ⟨hchain, hcomplete⟩ := hexplores.effect.2 rfl
    obtain ⟨htcoherent, htsize⟩ := hcoherent.of_reflTransGen hchain
    refine ⟨hcomplete, ?_, hcoherent.exists_trail_eq_append hchain, ?_⟩
    · intro x hx
      have hne := htcoherent.isComplete_iff.1 hcomplete x (by rwa [htsize, hsize])
      exact Option.ne_none_iff_exists'.1 hne
    · exact fun x c ↦ Assignment.colourAt_of_reflTransGen hchain
  · intro x c hrun
    have hfaults : FaultsWithin (fun e ↦ e = .undoMismatch x c → p.strategy.Raises e)
        (run p store s) := by
      refine faultsWithin_run (fun _ _ ↦ nofun) (fun _ ↦ nofun) nofun ?_ ?_ store s hcoherent
      · exact fun ctx m e he _ ↦ Or.inl ⟨ctx, m, he⟩
      · exact fun ctx y m e he _ ↦ Or.inr ⟨ctx, y, m, he⟩
    exact hfaults _ hrun rfl

/-- A triangle, one of whose vertices has the colour `1`. Selectors that only ever name the colours
`1` and `2` fail and leave that alone; with `9` among them, which is in no domain, they succeed, and
what they decide stands after it. -/
theorem run_leaves_no_trace_triangle :
    Assignment.Arises 3 ⟨.ofList [some 1, none, none], [0]⟩ ∧
      (∃ t, run ⟨Graph.declared [.edge 1 2, .edge 2 3, .edge 1 3],
        ⟨.firstOf [2, 1], .always [2, 1, 2]⟩, false⟩ (.full 3 3)
        { assignment := ⟨.ofList [some 1, none, none], [0]⟩, memory := () } = .ok (false, t) ∧
        t.assignment = ⟨.ofList [some 1, none, none], [0]⟩) ∧
      ∃ t, run ⟨Graph.declared [.edge 1 2, .edge 2 3, .edge 1 3],
        ⟨.firstOf [2, 1], .always [2, 1, 9]⟩, false⟩ (.full 3 3)
        { assignment := ⟨.ofList [some 1, none, none], [0]⟩, memory := () } = .ok (true, t) ∧
        ∃ new, t.assignment.trail = (0, 1) :: new := by
  have harises : Assignment.Arises 3 ⟨.ofList [some 1, none, none], [0]⟩ :=
    .assign (x := 0) (c := 1) .blank rfl
  have hfails : Prod.fst <$> run ⟨Graph.declared [.edge 1 2, .edge 2 3, .edge 1 3],
      ⟨.firstOf [2, 1], .always [2, 1, 2]⟩, false⟩ (.full 3 3)
      { assignment := ⟨.ofList [some 1, none, none], [0]⟩, memory := () } = .ok false := by cbv
  have hsucceeds : Prod.fst <$> run ⟨Graph.declared [.edge 1 2, .edge 2 3, .edge 1 3],
      ⟨.firstOf [2, 1], .always [2, 1, 9]⟩, false⟩ (.full 3 3)
      { assignment := ⟨.ofList [some 1, none, none], [0]⟩, memory := () } = .ok true := by cbv
  refine ⟨harises, ?_, ?_⟩
  · obtain ⟨⟨_, t⟩, hrun, rfl⟩ := map_eq_ok_iff.1 hfails
    exact ⟨t, hrun, (run_leaves_no_trace _ _ _ 3 harises).1 t hrun⟩
  · obtain ⟨⟨_, t⟩, hrun, rfl⟩ := map_eq_ok_iff.1 hsucceeds
    obtain ⟨-, -, ⟨new, htrail, -⟩, -⟩ := (run_leaves_no_trace _ _ _ 3 harises).2.1 t hrun
    exact ⟨t, hrun, new, htrail⟩

/-- What decisions that no neighbour contradicts make of a proper assignment is proper, and if all
variables of the graph have a colour in the end, it is a proper colouring of the graph. -/
theorem Explores.exists_isProper (hg : p.graph.Simple) (hs : s.assignment.Coherent)
    (hsize : s.assignment.colours.size = p.graph.size) (hproper : s.assignment.IsProper p.graph)
    (h : Explores p .node store s tried true t) :
    t.assignment.isComplete = true ∧ t.assignment.IsProper p.graph ∧
      ∃ f, p.graph.IsProper f ∧ ∀ x < p.graph.size, t.assignment.colourAt x = some (f x) := by
  obtain ⟨hchain, hcomplete⟩ := h.effect.2 rfl
  obtain ⟨htcoherent, htsize⟩ := hs.of_reflTransGen hchain
  have htproper := Assignment.isProper_of_reflTransGen hg hchain hproper
  obtain ⟨f, hf⟩ := htcoherent.exists_colouring hcomplete
  rw [htsize, hsize] at hf
  exact ⟨hcomplete, htproper, f, htproper.isProper_of_colourAt hg hf, hf⟩

end Search

/-! ### Solutions -/

/-- A solution that is found with any selectors is that of a proper colouring, which is what the
search has left behind. -/
theorem exists_colouring_of_solveWith {g : Graph} {k : Nat} (hg : g.Simple) {σ : Type}
    {strategy : Strategy σ} {memory : σ} {narrow : Bool} {r : Run} {s : Solution}
    (hr : solveWith g k strategy memory narrow = .ok r) (hs : r.solution = some s) :
    ∃ f tried t, Explores ⟨g, strategy, narrow⟩ .node (.full g.size k)
        { assignment := .blank g.size, memory } tried true t ∧
      (∀ x < g.size, t.assignment.colourAt x = some (f x)) ∧ g.IsProper f ∧
      s = .ofColouring g f := by
  obtain ⟨tried, found, t, hexplores, -, hnone, hsome⟩ := of_solveWith_eq_ok hg hr
  cases found with
  | false => cases (hnone rfl).symm.trans hs
  | true =>
    obtain ⟨s', hs', hrs⟩ := hsome rfl
    obtain rfl := Option.some.inj (hrs.symm.trans hs)
    have hfits := Context.fits_full_blank hg k
    obtain ⟨hcomplete, -, f, hproper, hcolour⟩ :=
      hexplores.exists_isProper hg hfits.coherent hfits.size_assignment
        (Assignment.isProper_blank _ _)
    have hsolution := Solution.ofAssignment_eq_ok hcomplete hcolour
    exact ⟨f, tried, t, hexplores, hcolour, hproper, Except.ok.inj (hs'.symm.trans hsolution)⟩

/-- **No selectors make a search unsound.** Whatever the selectors are, a search of a declared graph
that starts from an assignment of its variables without equal colours on an edge, and succeeds,
leaves every variable a colour and no edge with equal colours. So every solution that is found with
them is complete for its own graph and violates none of its edges. -/
theorem solveWith_passes_checks (calls : List Declaration) {σ : Type} (strategy : Strategy σ)
    (narrow : Bool) :
    (∀ (store : Store) (s t : State σ), s.assignment.Arises (Graph.declared calls).size →
      s.assignment.IsProper (Graph.declared calls) →
      run ⟨Graph.declared calls, strategy, narrow⟩ store s = .ok (true, t) →
      (∀ x < (Graph.declared calls).size, ∃ c, t.assignment.colourAt x = some c) ∧
        t.assignment.IsProper (Graph.declared calls)) ∧
      ∀ (k : Nat) (memory : σ) (r : Run) (solution : Solution),
        solveWith (Graph.declared calls) k strategy memory narrow = .ok r →
        r.solution = some solution →
        solution.isCompleteFor (Graph.declared calls) = .ok true ∧
          solution.violated (Graph.declared calls) = .ok [] := by
  have hg := Graph.simple_declared calls
  refine ⟨?_, ?_⟩
  · intro store s t harises hproper hrun
    obtain ⟨hcoherent, hsize⟩ := harises.coherent
    obtain ⟨_, hexplores⟩ := exists_explores_of_run hcoherent hrun
    obtain ⟨-, htproper, f, -, hf⟩ := hexplores.exists_isProper hg hcoherent hsize hproper
    exact ⟨fun x hx ↦ ⟨f x, hf x hx⟩, htproper⟩
  · intro k memory r solution hr hsolution
    obtain ⟨f, _, _, -, -, hproper, rfl⟩ := exists_colouring_of_solveWith hg hr hsolution
    exact ⟨Solution.isCompleteFor_ofColouring _ f, Solution.violated_ofColouring hg hproper⟩

/-- An edge, with selectors that remember a number, go through the variables backwards, and name the
colour `7` twice and then the number: they give the two vertices the colours `9` and `7`, which are
not of the palette, and still no edge has equal colours and the solution passes its checks. -/
theorem solveWith_passes_checks_unruly :
    (∃ t, run ⟨Graph.declared [.edge 4 5],
        ⟨.firstOf [1, 0], fun _ _ n ↦ .ok ([7, 7, n], n + 1)⟩, false⟩ (.full 2 2)
        { assignment := .blank (Graph.declared [.edge 4 5]).size, memory := 8 } = .ok (true, t) ∧
      t.assignment.IsProper (Graph.declared [.edge 4 5])) ∧
    ∃ r solution, solveWith (Graph.declared [.edge 4 5]) 2
        ⟨.firstOf [1, 0], fun _ _ n ↦ .ok ([7, 7, n], n + 1)⟩ 8 false = .ok r ∧
      r.solution = some solution ∧ solution.pairs = [(4, 9), (5, 7)] ∧
      solution.isCompleteFor (Graph.declared [.edge 4 5]) = .ok true ∧
      solution.violated (Graph.declared [.edge 4 5]) = .ok [] := by
  have hfound : Prod.fst <$> run ⟨Graph.declared [.edge 4 5],
      ⟨.firstOf [1, 0], fun _ _ n ↦ .ok ([7, 7, n], n + 1)⟩, false⟩ (.full 2 2)
      { assignment := .blank (Graph.declared [.edge 4 5]).size, memory := 8 } = .ok true := by cbv
  have hsolved : Run.solution <$> solveWith (Graph.declared [.edge 4 5]) 2
      ⟨.firstOf [1, 0], fun _ _ n ↦ .ok ([7, 7, n], n + 1)⟩ 8 false =
        .ok (some ⟨.ofList [4, 5], .ofList [9, 7]⟩) := by cbv
  obtain ⟨hsearch, hsolution⟩ := solveWith_passes_checks [.edge 4 5]
    ⟨.firstOf [1, 0], fun _ _ n ↦ .ok ([7, 7, n], n + 1)⟩ false
  constructor
  · obtain ⟨⟨_, t⟩, hrun, rfl⟩ := map_eq_ok_iff.1 hfound
    exact ⟨t, hrun, (hsearch _ _ t .blank (Assignment.isProper_blank _ _) hrun).2⟩
  · obtain ⟨r, hr, hs⟩ := map_eq_ok_iff.1 hsolved
    exact ⟨r, _, hr, hs, rfl, hsolution _ _ r _ hr hs⟩

end GraphSearch.Colouring
