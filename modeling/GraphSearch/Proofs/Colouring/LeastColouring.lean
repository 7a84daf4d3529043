import GraphSearch.Proofs.Colouring.AnySelectors

/-!
# The first colouring in lexicographic order

With the variables in their order and the colours in theirs a search finds the least of all
colourings that complete its root, in the lexicographic order of their colours
(`Explores.lexLE`). Narrowing has no part in that, so it never changes the colouring that is found.

Any colouring `h` that completes a node is followed down the tree. The variable that is selected is
the lowest without a colour, so that the colouring that is found and `h` agree below it. The colours
that are left for it stand in ascending order, as propagation only ever takes some away. A colour
that was tried in vain is not that of `h`, whatever ruled it out (`Stage.Offers.tail`). So the
colour that leads to success is that of `h`, and `h` completes the child, or `h` has one of those
that come after it, and is greater.
-/

namespace GraphSearch.Colouring

open Relation Search

/-! ### The lexicographic order of colourings -/

/-- Where the colours of the first `n` variables first differ, the first colouring has the lower
one. -/
def LexLE (n : Nat) (f h : Variable → Colour) : Prop := ∀ x < n, (∀ y < x, f y = h y) → f x ≤ h x

namespace LexLE

variable {n : Nat} {f h : Variable → Colour}

theorem antisymm (hfh : LexLE n f h) (hhf : LexLE n h f) (x : Variable) (hx : x < n) :
    f x = h x := by
  induction x using Nat.strong_induction_on with
  | _ x ih =>
    have hbelow : ∀ y < x, f y = h y := fun y hy ↦ ih y hy (hy.trans hx)
    exact le_antisymm (hfh x hx hbelow) (hhf x hx fun y hy ↦ (hbelow y hy).symm)

/-- The order of the colourings is that of the lists of their colours. -/
theorem map_range (hfh : LexLE n f h) :
    (List.range n).map f = (List.range n).map h ∨
      List.Lex (· < ·) ((List.range n).map f) ((List.range n).map h) := by
  -- After `a` variables on which the two agree, the rest is compared in the same way.
  have hrest : ∀ m a, a + m = n → (∀ y < a, f y = h y) →
      (List.range' a m).map f = (List.range' a m).map h ∨
        List.Lex (· < ·) ((List.range' a m).map f) ((List.range' a m).map h) := by
    intro m
    induction m with
    | zero => exact fun a _ _ ↦ Or.inl rfl
    | succ m ih =>
      intro a ha hbelow
      rw [List.range'_succ, List.map_cons, List.map_cons]
      rcases (hfh a (by omega) hbelow).lt_or_eq with hlt | heq
      · exact Or.inr (.rel hlt)
      · rw [heq]
        have hupto : ∀ y < a + 1, f y = h y := fun y hy ↦
          (Nat.lt_succ_iff_lt_or_eq.1 hy).elim (hbelow y) fun hya ↦ hya ▸ heq
        exact (ih (a + 1) (by omega) hupto).imp (congrArg _) .cons
  rw [List.range_eq_range']
  exact hrest n 0 (Nat.zero_add n) nofun

end LexLE

/-! ### Searching in order -/

namespace Search

variable {σ : Type} {p : Problem σ} {I : σ → Prop} {store : Store} {s t : State σ} {x : Variable}
  {c : Colour} {cs : List Colour} {tried : List Assignment} {found : Bool} {stage : Stage}
  {h : Variable → Colour}

/-- The variable whose colours are tried is the lowest without a colour, the colours come in the
order of its domain, and that of the colouring is still to come. -/
def Stage.Offers (h : Variable → Colour) (ctx : Context) : Stage → Prop
  | .node => True
  | .trying x cs => ctx.firstOpen = some x ∧ cs.Sublist (ctx.store.coloursAt x) ∧ h x ∈ cs

/-- A colour that was tried in vain is not that of the colouring, which is still to come. -/
theorem Stage.Offers.tail (hstage : (Stage.trying x (c :: cs)).Offers h (p.contextAt store s))
    (hp : p.strategy.KeepsContracts p.graph I) (hm : I s.memory)
    (hfits : (p.contextAt store s).Fits) (hh : Completes h p.graph store s.assignment)
    (hvain : Explores p (.trying x [c]) store s tried false t) :
    (Stage.trying x cs).Offers h (p.contextAt store s) := by
  obtain ⟨hfirst, hordered, hmem⟩ := hstage
  have htried : (Stage.trying x [c]).Fits (p.contextAt store s) :=
    ⟨(Context.firstOpen_eq_some_iff.1 hfirst).1,
      List.cons_subset.2 ⟨hordered.subset List.mem_cons_self, List.nil_subset _⟩⟩
  have hrefuted : h x ∉ [c] := (hvain.verdict hp hfits htried hm).refuted rfl h hh
  refine ⟨hfirst, (List.sublist_cons_self c cs).trans hordered, ?_⟩
  exact (List.mem_cons.1 hmem).resolve_left fun heq ↦ hrefuted (List.mem_singleton.2 heq)

/-- **Searching in order finds the least of all completions**, with narrowing or without. -/
theorem Explores.lexLE (hp : p.strategy = ⟨.inputOrder, .inDomainOrder⟩)
    (hexplores : Explores p stage store s tried found t) (hfound : found = true)
    (hfits : (p.contextAt store s).Fits) (hascending : store.Ascending)
    (hh : Completes h p.graph store s.assignment) (hstage : stage.Offers h (p.contextAt store s))
    {f : Variable → Colour} (hf : ∀ x < p.graph.size, t.assignment.colourAt x = some (f x)) :
    LexLE p.graph.size f h := by
  have hlawful : p.strategy.KeepsContracts p.graph fun _ ↦ True := by
    rw [hp]
    exact ⟨VariableSelector.keepsContract_inputOrder _ _,
      ValueSelector.keepsContract_inDomainOrder _ _⟩
  induction hexplores with
  | complete _ =>
    intro x hx _
    exact (hh.extends_assignment x (f x) (hf x hx)).ge
  | givenUp _ _ _ => cases hfound
  | branched _ selected choice ordered _ ih =>
    rw [hp] at selected ordered
    obtain rfl := Except.ok.inj ((VariableSelector.inputOrder_eq_ok hfits _).symm.trans selected)
    have hx := (Context.firstOpen_eq_some_iff.1 choice).1
    have hcolours := (ValueSelector.inDomainOrder_eq_ok hfits hx.1 _).symm.trans ordered
    obtain ⟨rfl, -⟩ := Prod.mk.inj (Except.ok.inj hcolours)
    exact ih hfound hfits hascending hh ⟨choice, .refl _, hh.within _ hx.1⟩ hf
  | exhausted => cases hfound
  | skipped contradicted _ ih =>
    have hrest := hstage.tail hlawful trivial hfits hh (.skipped contradicted .exhausted)
    exact ih hfound hfits hascending hh hrest hf
  | wiped consistent attempted retracted _ ih =>
    have hrest := hstage.tail hlawful trivial hfits hh
      (.wiped consistent attempted retracted .exhausted)
    have hw := (assignment_of_retract attempted rfl retracted).1
    exact ih hfound (contextAt_congr hw ▸ hfits) hascending (hw ▸ hh)
      (contextAt_congr hw ▸ hrest) hf
  | failed consistent attempted below retracted _ _ ih =>
    have hrest := hstage.tail hlawful trivial hfits hh
      (.failed consistent attempted below retracted .exhausted)
    have hw := (assignment_of_retract attempted (below.effect.1 rfl) retracted).1
    exact ih hfound (contextAt_congr hw ▸ hfits) hascending (hw ▸ hh)
      (contextAt_congr hw ▸ hrest) hf
  | @succeeded store d s u t x c cs inner _ attempted below ih =>
    obtain ⟨hfitsu, hsub⟩ := fits_of_attempt hfits attempted
    obtain ⟨hfirst, hordered, hmem⟩ := hstage
    obtain ⟨hx, hbelow⟩ := Context.firstOpen_eq_some_iff.1 hfirst
    rcases List.mem_cons.1 hmem with rfl | hlater
    · obtain ⟨d', hd, hchild⟩ := hh.attempt hfits attempted
      obtain rfl := Option.some.inj hd
      exact ih rfl hfitsu (hascending.of_sublist hsub) hchild trivial hf
    · -- The colours below `x` are those of `h`, and at `x` that of `h` comes later.
      have hlt : c < h x := List.rel_of_pairwise_cons ((hascending x).sublist hordered) hlater
      obtain ⟨-, -, -, -, hcolour⟩ :=
        Assignment.of_assign_eq_ok (of_attempt_eq_ok attempted).1
      have hchain := (below.effect.2 rfl).1
      have hfx : f x = c := by
        have hux : u.assignment.colourAt x = some c := (hcolour x).trans (if_pos rfl)
        have htx := Assignment.colourAt_of_reflTransGen hchain hux
        exact Option.some.inj ((hf x hx.1).symm.trans htx)
      intro z hz hagree
      rcases Nat.lt_trichotomy z x with hzx | rfl | hxz
      · obtain ⟨b, hb⟩ := Option.ne_none_iff_exists'.1 (hbelow z hzx)
        have huz : u.assignment.colourAt z = some b := (hcolour z).trans ((if_neg hzx.ne).trans hb)
        have htz := Assignment.colourAt_of_reflTransGen hchain huz
        rw [Option.some.inj ((hf z hz).symm.trans htz)]
        exact (hh.extends_assignment z b hb).ge
      · exact hfx.le.trans hlt.le
      · exact absurd (hfx.symm.trans (hagree x hxz)) hlt.ne

end Search

/-! ### Solving in order -/

variable {g : Graph} {k : Nat}

/-- What is found in order completes the root of the search, and nothing that does is less. -/
theorem exists_least_of_solve (hg : g.Simple) {narrow : Bool} {r : Run} {s : Solution}
    (hr : solve g k ⟨.inputOrder, .inDomainOrder, narrow⟩ = .ok r) (hs : r.solution = some s) :
    ∃ f, s = .ofColouring g f ∧ Completes f g (.full g.size k) (.blank g.size) ∧
      ∀ h, Completes h g (.full g.size k) (.blank g.size) → LexLE g.size f h := by
  obtain ⟨r', hr', hr⟩ := bind_eq_ok_iff.1 hr
  obtain rfl := Except.ok.inj hr
  obtain ⟨f, _, t, hexplores, hcolour, hproper, hsolution⟩ :=
    exists_colouring_of_solveWith hg hr' hs
  have hfits := Context.fits_full_blank hg k
  have hlawful := Options.keepsContracts ⟨.inputOrder, .inDomainOrder, narrow⟩ g
  have hverdict := hexplores.verdict (I := (· = {})) hlawful hfits trivial rfl
  refine ⟨f, hsolution, ⟨hproper, ?_, ?_⟩, ?_⟩
  · intro x c hx
    cases (Assignment.colourAt_blank _ x).symm.trans hx
  · intro x hx
    refine (hverdict.within rfl x (f x) (hcolour x hx)).resolve_left fun hblank ↦ ?_
    cases (Assignment.colourAt_blank _ x).symm.trans hblank
  · intro h hh
    exact hexplores.lexLE rfl rfl hfits (Store.ascending_full _ k) hh trivial hcolour

/-- **In order the solver finds the lexicographically least colouring.** Whatever is declared and
whatever the palette is, with the variables and their colours in order it comes to the same solution
with narrowing and without. If there is one, it is a colouring of what was declared, and its colours
in ascending order of the labels come before those of every other colouring. -/
theorem solve_lexicographically_least (calls : List Declaration) (k : Nat) :
    ∃ solution : Option Solution,
      (∀ narrow, ∃ r, solve (Graph.declared calls) k ⟨.inputOrder, .inDomainOrder, narrow⟩ = .ok r ∧
        r.solution = solution) ∧
      ∀ s, solution = some s → s.Solves calls k ∧ ∀ F, IsColouring F calls k →
        s.pairs.map Prod.snd = (s.pairs.map Prod.fst).map F ∨
          List.Lex (· < ·) (s.pairs.map Prod.snd) ((s.pairs.map Prod.fst).map F) := by
  have hg := Graph.simple_declared calls
  obtain ⟨r, hr, hnone, hsolves⟩ :=
    exists_solve_eq_ok calls k ⟨.inputOrder, .inDomainOrder, false⟩
  refine ⟨r.solution, fun narrow ↦ ?_, fun s hs ↦ ⟨(hsolves s hs).1, fun F hF ↦ ?_⟩⟩
  · obtain ⟨r', hr', hnone', hsolves'⟩ :=
      exists_solve_eq_ok calls k ⟨.inputOrder, .inDomainOrder, narrow⟩
    refine ⟨r', hr', ?_⟩
    cases hs : r.solution with
    | none =>
      refine Option.eq_none_iff_forall_ne_some.2 fun s' hs' ↦ ?_
      exact hnone hs (hsolves' s' hs').2
    | some s =>
      cases hs' : r'.solution with
      | none => exact absurd (hsolves s hs).2 (hnone' hs')
      | some s' =>
        -- Each of the two is least, so that they are the same.
        obtain ⟨f, rfl, hf, hleast⟩ := exists_least_of_solve hg hr hs
        obtain ⟨f', rfl, hf', hleast'⟩ := exists_least_of_solve hg hr' hs'
        have heq := (hleast' f hf).antisymm (hleast f' hf')
        rw [Solution.ofColouring, Solution.ofColouring,
          List.map_congr_left fun x hx ↦ heq x (List.mem_range.1 hx)]
  · obtain ⟨f, rfl, -, hleast⟩ := exists_least_of_solve hg hr hs
    rw [Solution.pairs_ofColouring, List.map_map, List.map_map, List.map_map]
    exact (hleast _ hF.completes).map_range

end GraphSearch.Colouring
