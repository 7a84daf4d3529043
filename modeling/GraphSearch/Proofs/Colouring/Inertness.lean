import GraphSearch.Proofs.Colouring.Handshake
import GraphSearch.Proofs.Colouring.Solving
import GraphSearch.Proofs.Colouring.WholePalette

/-!
# Searching without narrowing

If a colour that is tried does not become the only one of its variable, every node of a search has
the store of the root, in which each variable has the whole palette (`store_eq_full_of_attempt`). So
the standing selectors choose alike, and whatever the options are, the search takes the same
decisions in the same order: `Explores.agrees` carries a search with one plain strategy over to
another, with the same answer, assignment and counts. Only what is said on the way may differ.

Unless the palette has one colour, no propagation does anything either (`Position.Undisturbed`), and
it takes each arc from the list once (`Explores.isIdle`).
-/

namespace GraphSearch.Colouring

open Relation

namespace Search

variable {σ σ' : Type} {g : Graph} {k : Nat} {strategy : Strategy σ} {strategy' : Strategy σ'}
  {m : σ} {m' : σ'} {p : Problem σ} {store d : Store} {s t u w : State σ} {s' u' : State σ'}
  {x : Variable} {c : Colour} {b : Option Store} {tried : List Assignment} {found : Bool}
  {stage : Stage}

/-! ### One decision -/

/-- The outcome of an attempt from the whole palette. -/
theorem store_eq_full_of_attempt (hg : g.Simple)
    (h : attempt ⟨g, strategy, false⟩ (.full g.size k) x c s = .ok (some d, u)) :
    d = .full g.size k := by
  obtain ⟨-, -, e, o, _, hbranch, ho, hb⟩ := of_attempt_eq_ok h
  obtain rfl : .full g.size k = e := Except.ok.inj hbranch
  cases hwiped : o.wipedOut with
  | some a =>
    rw [hwiped] at hb
    cases hb
  | none =>
    rw [hwiped] at hb
    exact (Option.some.inj hb).trans (store_eq_full_of_propagate hg ho hwiped)

/-! ### Two searches side by side -/

/-- The two states have the same assignment and the same counts, and a given memory each. -/
structure Agrees (m : σ) (m' : σ') (s : State σ) (s' : State σ') : Prop where
  /-- The assignments are the same. -/
  assignment : s'.assignment = s.assignment
  /-- The counts are the same. -/
  statistics : s'.statistics = s.statistics
  /-- The memory of the first. -/
  memory : s.memory = m
  /-- The memory of the second. -/
  memory' : s'.memory = m'

namespace Agrees

theorem attempt (hs : Agrees m m' s s') (strategy' : Strategy σ')
    (h : Search.attempt ⟨g, strategy, false⟩ store x c s = .ok (b, u)) :
    ∃ u', Search.attempt ⟨g, strategy', false⟩ store x c s' = .ok (b, u') ∧ Agrees m m' u u' := by
  rw [attempt_eq] at h
  obtain ⟨a, hassign, h⟩ := bind_eq_ok_iff.1 h
  obtain ⟨e, hbranch, h⟩ := bind_eq_ok_iff.1 h
  obtain ⟨o, ho, h⟩ := bind_eq_ok_iff.1 h
  obtain ⟨rfl, rfl⟩ := Prod.mk.inj (Except.ok.inj h)
  have hbranch' : Problem.branch ⟨g, strategy', false⟩ store x c = .ok e := hbranch
  rw [attempt_eq, hs.assignment, hs.statistics, hassign, ok_bind, hbranch', ok_bind]
  dsimp only at ho ⊢
  rw [ho]
  exact ⟨_, rfl, rfl, rfl, hs.memory, hs.memory'⟩

theorem retract (hu : Agrees m m' u u') (h : Search.retract x c u = .ok w) :
    ∃ w', Search.retract x c u' = .ok w' ∧ Agrees m m' w w' := by
  obtain ⟨a, hundo, rfl⟩ := retract_eq_ok_iff.1 h
  rw [← hu.assignment] at hundo
  refine ⟨_, retract_eq_ok_iff.2 ⟨a, hundo, rfl⟩, rfl, ?_, hu.memory, hu.memory'⟩
  exact congrArg Statistics.undone hu.statistics

/-- On the whole palette plain strategies select alike. -/
theorem selectVariable (hs : Agrees m m' s s') (hp : strategy.IsPlain g k m)
    (hp' : strategy'.IsPlain g k m') (hfits : Context.Fits ⟨g, .full g.size k, s.assignment⟩)
    {r : Selected σ}
    (h : strategy.selectVariable ⟨g, .full g.size k, s.assignment⟩ s.memory = .ok r) :
    ∃ r', strategy'.selectVariable ⟨g, .full g.size k, s'.assignment⟩ s'.memory = .ok r' ∧
      r'.choice = r.choice ∧ Agrees m m' (s.selected r) (s'.selected r') ∧
      r.choice = Context.firstOpen ⟨g, .full g.size k, s.assignment⟩ := by
  obtain ⟨r₁, hr₁, hchoice, hmemory⟩ := hp.selectVariable _ hfits
  obtain ⟨r', hr', hchoice', hmemory'⟩ := hp'.selectVariable _ hfits
  rw [hs.memory] at h
  obtain rfl := Except.ok.inj (hr₁.symm.trans h)
  refine ⟨r', ?_, hchoice'.trans hchoice.symm, ⟨hs.assignment, hs.statistics, hmemory, hmemory'⟩,
    hchoice⟩
  rw [hs.assignment, hs.memory', hr']

end Agrees

/-- **On the whole palette and without narrowing, plain strategies search alike.** -/
theorem Explores.agrees (hp : strategy.IsPlain g k m) (hp' : strategy'.IsPlain g k m')
    (h : Explores ⟨g, strategy, false⟩ stage store s tried found t)
    (hstore : store = .full g.size k)
    (hfits : Context.Fits ⟨g, .full g.size k, s.assignment⟩) (hs : Agrees m m' s s') :
    ∃ t', Explores ⟨g, strategy', false⟩ stage store s' tried found t' ∧ Agrees m m' t t' := by
  induction h generalizing s' with
  | complete complete => exact ⟨s', .complete (hs.assignment ▸ complete), hs⟩
  | givenUp incomplete selected choice =>
    subst hstore
    obtain ⟨r', hr', hchoice, hsel, -⟩ := hs.selectVariable hp hp' hfits selected
    exact ⟨_, .givenUp (hs.assignment ▸ incomplete) hr' (hchoice.trans choice), hsel⟩
  | @branched store s t r x cs mem tried found incomplete selected choice ordered _ ih =>
    subst hstore
    obtain ⟨r', hr', hchoice, hsel, hfirst⟩ := hs.selectVariable hp hp' hfits selected
    have hx : x < g.size := (Context.firstOpen_eq_some_iff.1 (hfirst.symm.trans choice)).1.1
    have hcs := hp.orderColours _ x hfits hx
    have hcs' := hp'.orderColours _ x hfits hx
    rw [← show r.memory = m from hsel.memory] at hcs
    obtain ⟨rfl, rfl⟩ := Prod.mk.inj (Except.ok.inj (hcs.symm.trans ordered))
    have hcs' : strategy'.orderColours ⟨g, .full g.size k, s'.assignment⟩ x r'.memory =
        .ok (List.range' 1 k, m') := by
      rw [hs.assignment, show r'.memory = m' from hsel.memory', hcs']
    have hordered : Agrees m m' { s.selected r with memory := r.memory }
        { s'.selected r' with memory := m' } :=
      ⟨hsel.assignment, hsel.statistics, hsel.memory, rfl⟩
    obtain ⟨t', ht', hagrees⟩ := ih rfl hfits hordered
    exact ⟨t', .branched (hs.assignment ▸ incomplete) hr' (hchoice.trans choice) hcs' ht', hagrees⟩
  | exhausted => exact ⟨s', .exhausted, hs⟩
  | skipped contradicted _ ih =>
    obtain ⟨t', ht', hagrees⟩ := ih hstore hfits hs
    exact ⟨t', .skipped (hs.assignment ▸ contradicted) ht', hagrees⟩
  | wiped consistent attempted retracted _ ih =>
    obtain ⟨u', hu', hu⟩ := hs.attempt strategy' attempted
    obtain ⟨w', hw', hw⟩ := hu.retract retracted
    have hassignment := (assignment_of_retract attempted rfl retracted).1
    obtain ⟨t', ht', hagrees⟩ := ih hstore (hassignment ▸ hfits) hw
    rw [← hu.assignment]
    exact ⟨t', .wiped (hs.assignment ▸ consistent) hu' hw' ht', hagrees⟩
  | failed consistent attempted below retracted _ ihbelow ih =>
    subst hstore
    obtain ⟨u', hu', hu⟩ := hs.attempt strategy' attempted
    obtain rfl := store_eq_full_of_attempt hfits.simple attempted
    have hfitsu := (fits_of_attempt (p := ⟨g, strategy, false⟩) (s := _) hfits attempted).1
    obtain ⟨v', hv', hv⟩ := ihbelow rfl hfitsu hu
    obtain ⟨w', hw', hw⟩ := hv.retract retracted
    have hassignment := (assignment_of_retract attempted (below.effect.1 rfl) retracted).1
    obtain ⟨t', ht', hagrees⟩ := ih rfl (hassignment ▸ hfits) hw
    rw [← hu.assignment]
    exact ⟨t', .failed (hs.assignment ▸ consistent) hu' hv' hw' ht', hagrees⟩
  | succeeded consistent attempted _ ih =>
    subst hstore
    obtain ⟨u', hu', hu⟩ := hs.attempt strategy' attempted
    obtain rfl := store_eq_full_of_attempt hfits.simple attempted
    have hfitsu := (fits_of_attempt (p := ⟨g, strategy, false⟩) (s := _) hfits attempted).1
    obtain ⟨t', ht', hagrees⟩ := ih rfl hfitsu hu
    rw [← hu.assignment]
    exact ⟨t', .succeeded (hs.assignment ▸ consistent) hu' ht', hagrees⟩

/-! ### What is counted -/

/-- Each decision has taken each arc from the list once, and nothing else was done. -/
def Statistics.IsIdle (g : Graph) (k : Statistics) : Prop :=
  k.propagation = { calls := k.nodes, arcsProcessed := g.arcs.length * k.nodes }

theorem isIdle_of_attempt (hg : g.Simple) (hk : k ≠ 1)
    (h : attempt ⟨g, strategy, false⟩ (.full g.size k) x c s = .ok (b, u))
    (hs : s.statistics.IsIdle g) : u.statistics.IsIdle g := by
  rw [attempt_eq] at h
  obtain ⟨a, hassign, h⟩ := bind_eq_ok_iff.1 h
  obtain ⟨e, hbranch, h⟩ := bind_eq_ok_iff.1 h
  obtain rfl : .full g.size k = e := Except.ok.inj hbranch
  obtain ⟨o, ho, h⟩ := bind_eq_ok_iff.1 h
  obtain ⟨rfl, rfl⟩ := Prod.mk.inj (Except.ok.inj h)
  have ho : propagate g (.full g.size k) (s.statistics.tried a.count).propagation = .ok o := ho
  rw [propagate_full hg hk] at ho
  obtain rfl := Except.ok.inj ho
  have hs : s.statistics.propagation = _ := hs
  show Propagation.Statistics.mk _ _ _ _ _ = Propagation.Statistics.mk _ _ _ _ _
  simp only [Statistics.tried, hs]
  rw [Nat.mul_succ]

/-- **A search without narrowing takes each arc from the list once for each decision**, unless the
palette has one colour, and no propagation does anything else. -/
theorem Explores.isIdle (hg : g.Simple) (hk : k ≠ 1)
    (h : Explores ⟨g, strategy, false⟩ stage store s tried found t)
    (hstore : store = .full g.size k)
    (hs : s.statistics.IsIdle g) : t.statistics.IsIdle g := by
  have hretract : ∀ {x c} {v w : State σ}, retract x c v = .ok w → v.statistics.IsIdle g →
      w.statistics.IsIdle g := by
    intro x c v w hretract hv
    obtain ⟨a, -, rfl⟩ := retract_eq_ok_iff.1 hretract
    exact hv
  induction h with
  | complete _ => exact hs
  | givenUp _ _ _ => exact hs
  | branched _ _ _ _ _ ih => exact ih hstore hs
  | exhausted => exact hs
  | skipped _ _ ih => exact ih hstore hs
  | wiped _ attempted retracted _ ih =>
    subst hstore
    exact ih rfl (hretract retracted (isIdle_of_attempt hg hk attempted hs))
  | failed _ attempted _ retracted _ ihbelow ih =>
    subst hstore
    have hd := store_eq_full_of_attempt hg attempted
    exact ih rfl (hretract retracted (ihbelow hd (isIdle_of_attempt hg hk attempted hs)))
  | succeeded _ attempted _ ih =>
    subst hstore
    exact ih (store_eq_full_of_attempt hg attempted) (isIdle_of_attempt hg hk attempted hs)

/-! ### What propagation does where the search passes -/

/-- If a colour is attempted at the position, propagation leaves each domain as it was. -/
def Position.Undisturbed (p : Problem σ) (v : Position σ) : Prop :=
  ∀ x c cs, v.stage = .trying x (c :: cs) →
    v.state.assignment.isConsistent p.graph x c = .ok true →
    ∃ d o, p.branch v.store x c = .ok d ∧
      propagate p.graph d v.state.statistics.propagation = .ok o ∧ o.wipedOut = none ∧ o.store = d

theorem Passes.store_eq_full {v v' : Position σ} (hg : g.Simple)
    (h : Passes ⟨g, strategy, false⟩ v v') (hv : v.store = .full g.size k) :
    v'.store = .full g.size k := by
  cases h with
  | descended _ attempted =>
    obtain rfl : _ = Store.full g.size k := hv
    exact store_eq_full_of_attempt hg attempted
  | _ => exact hv

/-- **No propagation of a search without narrowing changes any domain**, unless the palette has one
colour. -/
theorem undisturbed_of_passes {v v' : Position σ} (hg : g.Simple) (hk : k ≠ 1)
    (h : ReflTransGen (Passes ⟨g, strategy, false⟩) v v') (hv : v.store = .full g.size k) :
    v'.Undisturbed ⟨g, strategy, false⟩ := by
  have hv' : v'.store = .full g.size k := by
    induction h with
    | refl => exact hv
    | tail _ hlast ih => exact hlast.store_eq_full hg ih
  obtain ⟨stage, store, t⟩ := v'
  obtain rfl : store = .full g.size k := hv'
  intro x c cs _ _
  exact ⟨_, _, rfl, propagate_full hg hk t.statistics.propagation, rfl, rfl⟩

end Search

/-! ### Solving -/

open Search

/-- Two runs without narrowing come to the same, whatever the selectors are. -/
theorem eq_of_solve_eq_ok (hg : g.Simple) {v v' : VariableSelection} {c c' : ValueSelection}
    {r r' : Run} (h : solve g k ⟨v, c, false⟩ = .ok r) (h' : solve g k ⟨v', c', false⟩ = .ok r') :
    r'.solution = r.solution ∧ r'.statistics = r.statistics := by
  obtain ⟨_, found, t, ht, hstatistics, hnone, hsome⟩ := of_solve_eq_ok hg h
  obtain ⟨_, found', t', ht', hstatistics', hnone', hsome'⟩ := of_solve_eq_ok hg h'
  have hfits := Context.fits_full_blank hg k
  have hroot : Agrees {} {} (.root g) (.root g) := ⟨rfl, rfl, rfl, rfl⟩
  obtain ⟨u, hu, hagrees⟩ := ht.agrees (Options.isPlain ⟨v, c, false⟩ g k)
    (Options.isPlain ⟨v', c', false⟩ g k) rfl hfits hroot
  -- A search from the root has one outcome only.
  have houtcome := (hu.run_eq_ok hfits.coherent).symm.trans (ht'.run_eq_ok hfits.coherent)
  obtain ⟨rfl, rfl⟩ := Prod.mk.inj (Except.ok.inj houtcome)
  refine ⟨?_, by rw [hstatistics', hstatistics, hagrees.statistics]⟩
  cases found with
  | false => rw [hnone rfl, hnone' rfl]
  | true =>
    obtain ⟨s, hs, hsolution⟩ := hsome rfl
    obtain ⟨s', hs', hsolution'⟩ := hsome' rfl
    rw [hagrees.assignment, hs] at hs'
    rw [hsolution, hsolution', Except.ok.inj hs']

theorem isIdle_of_solve (hg : g.Simple) (hk : k ≠ 1) {v : VariableSelection} {c : ValueSelection}
    {r : Run} (h : solve g k ⟨v, c, false⟩ = .ok r) : r.statistics.IsIdle g := by
  obtain ⟨_, _, _, hexplores, hstatistics, -⟩ := of_solve_eq_ok hg h
  rw [hstatistics]
  exact hexplores.isIdle hg hk rfl rfl

/-- **Without narrowing the heuristics are inert.** Whatever is declared and whatever the palette
is, the solver comes to the same solution with the same counts for each choice of the next variable
and each order of the colours. Unless the palette has one colour, propagation is inert as well:
nowhere where the search passes does it change any domain, so it takes no colour away and empties no
domain, and it takes each arc, of which there are two for each edge, from the list once for each
decision. -/
theorem solve_without_narrowing (calls : List Declaration) (k : Nat) :
    ∃ (solution : Option Solution) (statistics : Search.Statistics),
      (∀ (v : VariableSelection) (c : ValueSelection), ∃ r,
        solve (Graph.declared calls) k ⟨v, c, false⟩ = .ok r ∧
          r.solution = solution ∧ r.statistics = statistics) ∧
      (k ≠ 1 →
        (∀ (v : VariableSelection) (c : ValueSelection) (position : Position Memory),
          ReflTransGen (Passes (Options.problem ⟨v, c, false⟩ (Graph.declared calls)))
            ⟨.node, .full (Graph.declared calls).size k, .root (Graph.declared calls)⟩ position →
          position.Undisturbed (Options.problem ⟨v, c, false⟩ (Graph.declared calls))) ∧
        statistics.propagation.revisions = 0 ∧ statistics.propagation.valuesPruned = 0 ∧
        statistics.propagation.wipeouts = 0 ∧
        statistics.propagation.arcsProcessed =
          2 * (Graph.declared calls).edgeCount * statistics.nodes) := by
  have hg := Graph.simple_declared calls
  obtain ⟨r, hr, -⟩ := exists_solve_eq_ok calls k ⟨.inputOrder, .inDomainOrder, false⟩
  refine ⟨r.solution, r.statistics, fun v c ↦ ?_, fun hk ↦ ⟨fun v c position hpasses ↦ ?_, ?_⟩⟩
  · obtain ⟨r', hr', -⟩ := exists_solve_eq_ok calls k ⟨v, c, false⟩
    exact ⟨r', hr', eq_of_solve_eq_ok hg hr hr'⟩
  · exact undisturbed_of_passes hg hk hpasses rfl
  · have hidle : r.statistics.propagation = _ := isIdle_of_solve hg hk hr
    rw [hidle, Graph.length_arcs_declared]
    exact ⟨rfl, rfl, rfl, rfl⟩

end GraphSearch.Colouring
