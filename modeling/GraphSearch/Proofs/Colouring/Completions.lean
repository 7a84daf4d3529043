import GraphSearch.Proofs.Colouring.ClosedStore
import GraphSearch.Proofs.Colouring.Contracts
import GraphSearch.Proofs.Colouring.SearchTree

/-!
# What a search finds

A colouring *completes* a node if it is proper, extends the assignment and stays within the domains
(`Search.Completes`). A search with lawful selectors succeeds exactly if some colouring completes
its root.

One colouring is followed down the tree. Where a variable is selected, one of the colours tried is
that of the colouring, and it is consistent; narrowing keeps it; and propagation keeps the
colouring, because its colours, one for each variable, are a closed sub-store of the domains
(`Completes.propagate`). So as long as a colouring completes the node, the child with its colour is
neither skipped nor emptied, and is completed by it (`Completes.attempt`).

What is assigned below a node comes from the domains of that node, since stores only shrink on the
way down. Nothing more than that relates the assignment to the domains: without narrowing a variable
that has a colour may keep others, and propagation may even take the assigned one away from it, when
a neighbour has that colour alone. That harms nothing, as the branch cannot be completed then.
-/

namespace GraphSearch.Colouring

variable {g : Graph} {f : Variable → Colour} {store : Store} {a b : Assignment} {x : Variable}

/-! ### Colourings as stores -/

/-- The store that leaves each variable its colour. -/
def Store.single (n : Nat) (f : Variable → Colour) : Store :=
  ⟨.ofList ((List.range n).map fun x ↦ ⟨[f x]⟩)⟩

theorem Store.mem_coloursAt_single {n : Nat} {c : Colour} :
    c ∈ (Store.single n f).coloursAt x ↔ x < n ∧ c = f x := by
  rw [coloursAt, single, Table.getD_ofList, List.getElem?_map]
  by_cases hx : x < n
  · simp [hx]
  · simp [hx]

/-- **A proper colouring within the domains is a closed sub-store.** -/
theorem Store.isClosedIn_single (hf : g.IsProper f) (hsize : store.size = g.size)
    (hwithin : ∀ x < g.size, f x ∈ store.coloursAt x) :
    (Store.single g.size f).IsClosedIn g store where
  size_eq := by
    rw [hsize, size, single, Table.size_ofList, List.length_map, List.length_range]
  subset x c hc := by
    obtain ⟨hx, rfl⟩ := mem_coloursAt_single.1 hc
    exact hwithin x hx
  eq_nil x hnil := by
    -- Nothing is left past the end only, where the store leaves nothing either.
    refine coloursAt_of_size_le (hsize ▸ not_lt.1 fun hx ↦ ?_)
    exact List.not_mem_nil (hnil ▸ mem_coloursAt_single.2 ⟨hx, rfl⟩)
  closed x y c hy honly hc := by
    have hcy := (mem_coloursAt_single.1 ((honly c).2 rfl)).2
    have hcx := (mem_coloursAt_single.1 hc).2
    exact hf x y hy (hcx.symm.trans hcy)

/-! ### Completions -/

namespace Search

/-- A proper colouring that extends the assignment and stays within the domains. -/
structure Completes (f : Variable → Colour) (g : Graph) (store : Store) (a : Assignment) :
    Prop where
  /-- Neighbours get different colours. -/
  proper : g.IsProper f
  /-- Colours that are assigned stand. -/
  extends_assignment : ∀ x c, a.colourAt x = some c → f x = c
  /-- Every colour is left for its variable. -/
  within : ∀ x < g.size, f x ∈ store.coloursAt x

namespace Completes

/-- The colour that a completion gives is consistent. -/
theorem isConsistent_eq_ok_true (h : Completes f g store a) (hg : g.Simple)
    (hsize : a.colours.size = g.size) (hx : x < g.size) : a.isConsistent g x (f x) = .ok true := by
  refine Assignment.isConsistent_eq_ok_true hg hsize hx fun y hy hcolour ↦ ?_
  exact h.proper x y hy (h.extends_assignment y _ hcolour).symm

/-- Assigning the colour that a completion gives keeps it a completion. -/
theorem assign (h : Completes f g store a) (hassign : a.assign x (f x) = .ok b) :
    Completes f g store b where
  proper := h.proper
  extends_assignment y c hy := by
    obtain ⟨-, -, -, -, hcolour⟩ := Assignment.of_assign_eq_ok hassign
    rw [hcolour] at hy
    split at hy
    · rename_i hyx
      rw [hyx, Option.some.inj hy]
    · exact h.extends_assignment y c hy
  within := h.within

/-- **Propagation keeps every completion**, and so succeeds if there is one. -/
theorem propagate (h : Completes f g store a) (hg : g.Simple) (hsize : store.size = g.size)
    {k : Propagation.Statistics} {o : Propagation.Outcome} (ho : propagate g store k = .ok o) :
    o.wipedOut = none ∧ Completes f g o.store a := by
  have hends := ends_of_propagate hg hsize.ge ho
  have hclosed := Store.isClosedIn_single h.proper hsize h.within
  have hnone : o.wipedOut = none := (hends.eq_none_iff hg).2 ⟨_, hclosed⟩
  refine ⟨hnone, h.proper, h.extends_assignment, ?_⟩
  intro x hx
  exact ((hnone ▸ hends).sound hg).above _ hclosed x (Store.mem_coloursAt_single.2 ⟨hx, rfl⟩)

end Completes

/-! ### One attempt -/

variable {σ : Type} {p : Problem σ} {I : σ → Prop} {s t u : State σ} {c : Colour} {d : Store}
  {tried : List Assignment} {found : Bool} {stage : Stage}

/-- The branch of `x` keeps the variables, and takes away nothing but other colours of `x`. -/
theorem of_branch_eq_ok (h : p.branch store x c = .ok d) :
    d.size = store.size ∧ (∀ y, (d.coloursAt y).Sublist (store.coloursAt y)) ∧
      ∀ y c', c' ∈ store.coloursAt y → (y = x → c' = c) → c' ∈ d.coloursAt y := by
  rw [Problem.branch] at h
  split at h
  · obtain ⟨⟨removed, d'⟩, hnarrow, rfl⟩ := map_eq_ok_iff.1 h
    obtain ⟨hsize, hcolours⟩ := Store.coloursAt_of_narrow_eq_ok hnarrow
    refine ⟨hsize, ?_, ?_⟩
    · intro y
      rw [hcolours]
      split
      · rename_i hyx
        exact hyx ▸ List.filter_sublist
      · exact .refl _
    · intro y c' hc' hy
      rw [hcolours]
      split
      · rename_i hyx
        exact List.mem_filter.2 ⟨hyx ▸ hc', beq_iff_eq.2 (hy hyx)⟩
      · exact hc'
  · obtain rfl := Except.ok.inj h
    exact ⟨rfl, fun y ↦ .refl _, fun y c' hc' _ ↦ hc'⟩

/-- An attempt at a variable that has no colour meets no fault. -/
theorem exists_attempt_eq_ok (h : (p.contextAt store s).Fits) (hx : (p.contextAt store s).Open x)
    (c : Colour) : ∃ b u, attempt p store x c s = .ok (b, u) := by
  have hxg : x < p.graph.size := hx.1
  have hstore : store.size = p.graph.size := h.size_store
  have hassignment : s.assignment.colours.size = p.graph.size := h.size_assignment
  have hnone : s.assignment.colourAt x = none := hx.2
  have hg : p.graph.Simple := h.simple
  obtain ⟨a, hassign⟩ := Assignment.exists_assign_eq_ok (hassignment ▸ hxg) hnone c
  obtain ⟨d, hbranch⟩ : ∃ d, p.branch store x c = .ok d := by
    obtain ⟨removed, d, hnarrow⟩ := Store.exists_narrow_eq_ok (hstore ▸ hxg) c
    rw [Problem.branch, hnarrow]
    split <;> exact ⟨_, rfl⟩
  have hd : p.graph.size ≤ d.size := ((of_branch_eq_ok hbranch).1.trans hstore).ge
  obtain ⟨o, ho, -⟩ := exists_propagate_eq_ok hg hd (s.statistics.tried a.count).propagation
  rw [attempt_eq, hassign, ok_bind, hbranch, ok_bind, ho]
  exact ⟨_, _, rfl⟩

/-- The store of a child is what propagation leaves of the branch. -/
theorem exists_sound_of_attempt (h : (p.contextAt store s).Fits)
    (hattempt : attempt p store x c s = .ok (some d, u)) :
    ∃ e, p.branch store x c = .ok e ∧ Propagation.Sweep.Sound p.graph e ⟨[], d⟩ := by
  obtain ⟨-, -, e, o, k, hbranch, ho, hb⟩ := of_attempt_eq_ok hattempt
  have he : e.size = p.graph.size := (of_branch_eq_ok hbranch).1.trans h.size_store
  have hends := ends_of_propagate h.simple he.ge ho
  cases hwiped : o.wipedOut with
  | some a =>
    rw [hwiped] at hb
    cases hb
  | none =>
    rw [hwiped] at hb
    obtain rfl : d = o.store := Option.some.inj hb
    exact ⟨e, hbranch, (hwiped ▸ hends).sound h.simple⟩

/-- The child of a node fits its graph, and its colours are some of those of the node, in their
order. -/
theorem fits_of_attempt (h : (p.contextAt store s).Fits)
    (hattempt : attempt p store x c s = .ok (some d, u)) :
    (p.contextAt d u).Fits ∧ ∀ y, (d.coloursAt y).Sublist (store.coloursAt y) := by
  obtain ⟨e, hbranch, hsound⟩ := exists_sound_of_attempt h hattempt
  obtain ⟨hsize, hsub, -⟩ := of_branch_eq_ok hbranch
  have hassign := (of_attempt_eq_ok hattempt).1
  refine ⟨⟨h.simple, (hsound.size_eq.trans hsize).trans h.size_store, ?_,
    h.coherent.assign hassign⟩, fun y ↦ (hsound.sublist y).trans (hsub y)⟩
  exact (Assignment.of_assign_eq_ok hassign).2.2.1.trans h.size_assignment

/-- **The child with the colour of a completion is not emptied, and is completed by it.** -/
theorem Completes.attempt (h : Completes f p.graph store s.assignment)
    (hfits : (p.contextAt store s).Fits) {b : Option Store}
    (hattempt : attempt p store x (f x) s = .ok (b, u)) :
    ∃ d, b = some d ∧ Completes f p.graph d u.assignment := by
  obtain ⟨hassign, -, e, o, k, hbranch, ho, hb⟩ := of_attempt_eq_ok hattempt
  obtain ⟨hsize, -, hkept⟩ := of_branch_eq_ok hbranch
  -- The branch keeps the colours of the other variables, and of `x` the one that was assigned.
  have hbefore : Completes f p.graph e u.assignment := by
    obtain ⟨hproper, hextends, hwithin⟩ := h.assign hassign
    exact ⟨hproper, hextends, fun y hy ↦ hkept y _ (hwithin y hy) fun hyx ↦ hyx ▸ rfl⟩
  obtain ⟨hnone, hafter⟩ := hbefore.propagate hfits.simple (hsize.trans hfits.size_store) ho
  rw [hnone] at hb
  exact ⟨o.store, hb, hafter⟩

/-! ### The whole search -/

/-- What is known at a stage of the variable whose colours are tried. -/
def Stage.Fits (ctx : Context) : Stage → Prop
  | .node => True
  | .trying x cs => ctx.Open x ∧ cs ⊆ ctx.store.coloursAt x

/-- The colouring does not start with what is still to be tried. -/
def Stage.Avoids (f : Variable → Colour) : Stage → Prop
  | .node => False
  | .trying x cs => f x ∉ cs

/-- Selectors see nothing of a state but its assignment. -/
theorem contextAt_congr {w : State σ} (h : w.assignment = s.assignment) :
    p.contextAt store w = p.contextAt store s :=
  congrArg (Context.mk p.graph store) h

/-- An assignment that is not complete leaves a variable open. -/
theorem exists_open (h : (p.contextAt store s).Fits) (hs : s.assignment.isComplete = false) :
    ∃ x, (p.contextAt store s).Open x := by
  have hnot : ¬∀ x < s.assignment.colours.size, s.assignment.colourAt x ≠ none := fun hall ↦ by
    have hcoherent : s.assignment.Coherent := h.coherent
    rw [hcoherent.isComplete_iff.2 hall] at hs
    cases hs
  push Not at hnot
  obtain ⟨x, hx, hnone⟩ := hnot
  have hsize : s.assignment.colours.size = p.graph.size := h.size_assignment
  exact ⟨x, hsize ▸ hx, hnone⟩

/-- What lawful selectors choose: a variable that is open, and the colours that are left for it. -/
theorem of_selected (hp : p.strategy.KeepsContracts p.graph I) (hfits : (p.contextAt store s).Fits)
    (hm : I s.memory) (incomplete : s.assignment.isComplete = false) {r : Selected σ}
    (selected : p.strategy.selectVariable (p.contextAt store s) s.memory = .ok r)
    (choice : r.choice = some x) {cs : List Colour} {m : σ}
    (ordered : p.strategy.orderColours (p.contextAt store s) x r.memory = .ok (cs, m)) :
    (p.contextAt store s).Open x ∧ cs.Perm (store.coloursAt x) ∧ I m := by
  obtain ⟨r, x, hr, hchoice, hopen, hmr⟩ :=
    hp.selectVariable _ _ rfl hfits hm (exists_open hfits incomplete)
  obtain rfl := Except.ok.inj (selected.symm.trans hr)
  obtain rfl := Option.some.inj (choice.symm.trans hchoice)
  obtain ⟨cs, m, hordered, hperm, hmm⟩ := hp.orderColours _ _ _ rfl hfits hmr hopen
  obtain ⟨rfl, rfl⟩ := Prod.mk.inj (Except.ok.inj (ordered.symm.trans hordered))
  exact ⟨hopen, hperm, hmm⟩

/-- What is to be said of a search with lawful selectors that went from `s` to `t`. -/
structure Verdict (p : Problem σ) (I : σ → Prop) (stage : Stage) (store : Store) (s : State σ)
    (found : Bool) (t : State σ) : Prop where
  /-- The memory is as lawful as it was. -/
  memory : I t.memory
  /-- What was assigned on the way was left for its variable. -/
  within : found = true → ∀ y c, t.assignment.colourAt y = some c →
    s.assignment.colourAt y = some c ∨ c ∈ store.coloursAt y
  /-- If the search failed, what completes the node starts with nothing that was to be tried. -/
  refuted : found = false → ∀ f, Completes f p.graph store s.assignment → stage.Avoids f

/-- A colour that no completion has can be put before those that were tried. -/
theorem Verdict.cons {w : State σ} {cs : List Colour}
    (h : Verdict p I (.trying x cs) store w found t) (hw : w.assignment = s.assignment)
    (hc : ∀ f, Completes f p.graph store s.assignment → f x ≠ c) :
    Verdict p I (.trying x (c :: cs)) store s found t := by
  obtain ⟨hmemory, hwithin, hrefuted⟩ := h
  rw [hw] at hwithin hrefuted
  refine ⟨hmemory, hwithin, ?_⟩
  intro hfound f hf
  exact List.not_mem_cons_of_ne_of_not_mem (hc f hf) (hrefuted hfound f hf)

/-- The colours that are left after the first are still of the domain, and the variable is still
open, in every state that has the assignment. -/
theorem Stage.Fits.tail {w : State σ} {cs : List Colour}
    (h : (Stage.trying x (c :: cs)).Fits (p.contextAt store s)) (hw : w.assignment = s.assignment) :
    (Stage.trying x cs).Fits (p.contextAt store w) := by
  rw [contextAt_congr hw]
  exact h.imp_right fun hcs ↦ (List.cons_subset.1 hcs).2

/-- **Every search with lawful selectors comes to the right verdict.** -/
theorem Explores.verdict (hp : p.strategy.KeepsContracts p.graph I)
    (h : Explores p stage store s tried found t) (hfits : (p.contextAt store s).Fits)
    (hstage : stage.Fits (p.contextAt store s)) (hm : I s.memory) :
    Verdict p I stage store s found t := by
  induction h with
  | complete _ => exact ⟨hm, fun _ y c hy ↦ Or.inl hy, nofun⟩
  | givenUp incomplete selected choice =>
    -- A lawful selector does not give up where a variable is open.
    obtain ⟨r, x, hr, hchoice, -⟩ :=
      hp.selectVariable _ _ rfl hfits hm (exists_open hfits incomplete)
    obtain rfl := Except.ok.inj (selected.symm.trans hr)
    cases choice.symm.trans hchoice
  | branched incomplete selected choice ordered _ ih =>
    obtain ⟨hopen, hperm, hmm⟩ := of_selected hp hfits hm incomplete selected choice ordered
    obtain ⟨hmemory, hwithin, hrefuted⟩ := ih hfits ⟨hopen, hperm.subset⟩ hmm
    refine ⟨hmemory, hwithin, ?_⟩
    intro hfound f hf
    exact hrefuted hfound f hf (hperm.mem_iff.2 (hf.within _ hopen.1))
  | exhausted => exact ⟨hm, nofun, fun _ f _ ↦ List.not_mem_nil⟩
  | skipped contradicted _ ih =>
    refine (ih hfits (hstage.tail rfl) hm).cons rfl ?_
    rintro f hf rfl
    cases contradicted.symm.trans
      (hf.isConsistent_eq_ok_true hfits.simple hfits.size_assignment hstage.1.1)
  | wiped _ attempted retracted _ ih =>
    obtain ⟨hassignment, hmemory⟩ := assignment_of_retract attempted rfl retracted
    have hmw := hmemory ▸ (of_attempt_eq_ok attempted).2.1 ▸ hm
    refine (ih (contextAt_congr hassignment ▸ hfits) (hstage.tail hassignment) hmw).cons
      hassignment ?_
    rintro f hf rfl
    obtain ⟨d, hd, -⟩ := hf.attempt hfits attempted
    cases hd
  | failed _ attempted below retracted _ ihbelow ih =>
    have hmu := (of_attempt_eq_ok attempted).2.1 ▸ hm
    have hbelow := ihbelow (fits_of_attempt hfits attempted).1 trivial hmu
    obtain ⟨hassignment, hmemory⟩ :=
      assignment_of_retract attempted (below.effect.1 rfl) retracted
    refine (ih (contextAt_congr hassignment ▸ hfits) (hstage.tail hassignment)
      (hmemory ▸ hbelow.memory)).cons hassignment ?_
    rintro f hf rfl
    obtain ⟨d, hd, hf⟩ := hf.attempt hfits attempted
    obtain rfl := Option.some.inj hd
    exact hbelow.refuted rfl f hf
  | succeeded _ attempted _ ih =>
    obtain ⟨hfitsu, hsub⟩ := fits_of_attempt hfits attempted
    obtain ⟨hassign, hmemory, -⟩ := of_attempt_eq_ok attempted
    obtain ⟨hmt, hwithin, -⟩ := ih hfitsu trivial (hmemory ▸ hm)
    refine ⟨hmt, ?_, nofun⟩
    intro _ y c hy
    -- A colour is left in the store of the child, or the child has it: from before, or just now.
    rcases hwithin rfl y c hy with hassigned | hleft
    · rw [(Assignment.of_assign_eq_ok hassign).2.2.2.2] at hassigned
      split at hassigned
      · rename_i hyx
        obtain rfl := Option.some.inj hassigned
        exact Or.inr (hyx ▸ hstage.2 List.mem_cons_self)
      · exact Or.inl hassigned
    · exact Or.inr ((hsub y).subset hleft)

/-- Trying colours of the domain explores them, if what is below can be explored. -/
theorem exists_explores_trying (hp : p.strategy.KeepsContracts p.graph I) {n : Nat}
    (hbelow : ∀ {d u}, (p.contextAt d u).Fits → u.assignment.free = n → I u.memory →
      ∃ tried found t, Explores p .node d u tried found t)
    {cs : List Colour} (hfits : (p.contextAt store s).Fits) (hopen : (p.contextAt store s).Open x)
    (hfree : s.assignment.free = n + 1) (hm : I s.memory) :
    ∃ tried found t, Explores p (.trying x cs) store s tried found t := by
  induction cs generalizing s with
  | nil => exact ⟨_, false, s, .exhausted⟩
  | cons c cs ih =>
    have hconsistent := Assignment.isConsistent_eq_ok hfits.simple hfits.size_assignment hopen.1 c
    cases hall : (p.graph.row x).all fun y ↦ s.assignment.colourAt y != some c with
    | false =>
      obtain ⟨_, found, t, ht⟩ := ih hfits hopen hfree hm
      exact ⟨_, found, t, .skipped (hconsistent.trans (congrArg _ hall)) ht⟩
    | true =>
      have hconsistent := hconsistent.trans (congrArg _ hall)
      obtain ⟨branch, u, hattempt⟩ := exists_attempt_eq_ok hfits hopen c
      obtain ⟨hassign, hmemory, -⟩ := of_attempt_eq_ok hattempt
      have hmu : I u.memory := hmemory ▸ hm
      -- Whatever comes back with the child's assignment, the other colours can be tried after it.
      have hrest : ∀ v : State σ, v.assignment = u.assignment → I v.memory →
          ∃ w tried found t,
            retract x c v = .ok w ∧ Explores p (.trying x cs) store w tried found t := by
        intro v hv hmv
        have hretract := retract_eq_ok (hv ▸ hassign)
        obtain ⟨tried, found, t, ht⟩ : ∃ tried found t, Explores p (.trying x cs) store
            { v with assignment := s.assignment, statistics := v.statistics.undone }
            tried found t :=
          ih hfits hopen hfree hmv
        exact ⟨_, tried, found, t, hretract, ht⟩
      cases branch with
      | none =>
        obtain ⟨w, _, found, t, hretract, ht⟩ := hrest u rfl hmu
        exact ⟨_, found, t, .wiped hconsistent hattempt hretract ht⟩
      | some d =>
        have hfitsu := (fits_of_attempt hfits hattempt).1
        have hfreeu : u.assignment.free = n := by
          have hcoherent : s.assignment.Coherent := hfits.coherent
          have := hcoherent.free_of_assign hassign
          omega
        obtain ⟨_, inner, v, hv⟩ := hbelow hfitsu hfreeu hmu
        cases inner with
        | true => exact ⟨_, true, v, .succeeded hconsistent hattempt hv⟩
        | false =>
          have hmv := (hv.verdict hp hfitsu trivial hmu).memory
          obtain ⟨w, _, found, t, hretract, ht⟩ := hrest v (hv.effect.1 rfl) hmv
          exact ⟨_, found, t, .failed hconsistent hattempt hv hretract ht⟩

/-- **With lawful selectors every search comes to an answer.** -/
theorem exists_explores (hp : p.strategy.KeepsContracts p.graph I)
    (hfits : (p.contextAt store s).Fits) (hm : I s.memory) :
    ∃ tried found t, Explores p .node store s tried found t := by
  induction hn : s.assignment.free generalizing store s with
  | zero =>
    have hcoherent : s.assignment.Coherent := hfits.coherent
    exact ⟨_, true, s, .complete (hcoherent.isComplete_iff_free.2 hn)⟩
  | succ n ih =>
    cases hcomplete : s.assignment.isComplete with
    | true => exact ⟨_, true, s, .complete hcomplete⟩
    | false =>
      obtain ⟨r, x, hr, hchoice, hopen, hmr⟩ :=
        hp.selectVariable _ _ rfl hfits hm (exists_open hfits hcomplete)
      obtain ⟨cs, m, hordered, -, hmm⟩ := hp.orderColours _ _ _ rfl hfits hmr hopen
      obtain ⟨_, found, t, ht⟩ : ∃ tried found t, Explores p (.trying x cs) store
          { s.selected r with memory := m } tried found t :=
        exists_explores_trying hp (fun hd hu hmu ↦ ih hd hmu hu) hfits hopen hn hmm
      exact ⟨_, found, t, .branched hcomplete hr hchoice hordered ht⟩

/-- A complete assignment without equal colours on an edge is a colouring, and completes what it
extends. -/
theorem exists_completes_of_isComplete (hg : g.Simple) (hcoherent : b.Coherent)
    (hsize : b.colours.size = g.size) (hproper : b.IsProper g) (hcomplete : b.isComplete = true)
    (hextends : ∀ x c, a.colourAt x = some c → b.colourAt x = some c)
    (hwithin : ∀ x c, b.colourAt x = some c → c ∈ store.coloursAt x) :
    ∃ f, Completes f g store a ∧ ∀ x < g.size, b.colourAt x = some (f x) := by
  obtain ⟨f, hf⟩ := hcoherent.exists_colouring hcomplete
  rw [hsize] at hf
  refine ⟨f, ⟨hproper.isProper_of_colourAt hg hf, ?_, fun x hx ↦ hwithin x _ (hf x hx)⟩, hf⟩
  intro x c hx
  have hx := hextends x c hx
  have hlt : x < g.size := hsize ▸ Assignment.lt_size_of_colourAt_eq_some hx
  exact Option.some.inj ((hf x hlt).symm.trans hx)

/-- What lawful selectors find, from any node that fits its graph: an answer, which is that of
whether the node can be completed, and a completion if there is one. -/
theorem exists_run_eq_ok (hp : p.strategy.KeepsContracts p.graph I)
    (hfits : (p.contextAt store s).Fits) (hm : I s.memory) (hproper : s.assignment.IsProper p.graph)
    (hwithin : ∀ x c, s.assignment.colourAt x = some c → c ∈ store.coloursAt x) :
    ∃ found t, run p store s = .ok (found, t) ∧
      (found = true ↔ ∃ f, Completes f p.graph store s.assignment) ∧
      (found = true → ∃ f, Completes f p.graph store s.assignment ∧
        ∀ x < p.graph.size, t.assignment.colourAt x = some (f x)) := by
  have hg : p.graph.Simple := hfits.simple
  have hcoherent : s.assignment.Coherent := hfits.coherent
  obtain ⟨tried, found, t, ht⟩ := exists_explores hp hfits hm
  have hverdict := ht.verdict hp hfits trivial hm
  have hfound : found = true → ∃ f, Completes f p.graph store s.assignment ∧
      ∀ x < p.graph.size, t.assignment.colourAt x = some (f x) := by
    intro hfound
    obtain ⟨hrun, hcomplete⟩ := ht.effect.2 hfound
    obtain ⟨htcoherent, htsize⟩ := hcoherent.of_reflTransGen hrun
    refine exists_completes_of_isComplete hg htcoherent (htsize.trans hfits.size_assignment)
      (Assignment.isProper_of_reflTransGen hg hrun hproper) hcomplete
      (fun x c hx ↦ Assignment.colourAt_of_reflTransGen hrun hx) ?_
    intro x c hx
    exact (hverdict.within hfound x c hx).elim (hwithin x c) id
  refine ⟨found, t, (run_eq_ok_iff hfits.size_store hcoherent).2 ⟨tried, ht⟩, ⟨?_, ?_⟩, hfound⟩
  · exact fun h ↦ (hfound h).imp fun f hf ↦ hf.1
  · rintro ⟨f, hf⟩
    by_contra hnot
    exact hverdict.refuted (Bool.not_eq_true _ ▸ hnot) f hf

/-- **A search decides whether what it is given can be completed.** For any domains of the variables
of a declared graph, any assignment that arises there, is proper and stays within the domains, and
any selectors that keep their contracts, the search answers whether some proper colouring extends
the assignment within the domains, and leaves such a colouring behind if there is one. The standing
selectors keep their contracts, and so do the standing selectors for variables with the domain order
reversed. -/
theorem run_decides_completion (calls : List Declaration) {σ : Type} (strategy : Strategy σ)
    (I : σ → Prop) (hstrategy : strategy.KeepsContracts (Graph.declared calls) I) (narrow : Bool)
    (store : Store) (hstore : store.size = (Graph.declared calls).size) (s : State σ)
    (hmemory : I s.memory) (harises : s.assignment.Arises (Graph.declared calls).size)
    (hwithin : ∀ x c, s.assignment.colourAt x = some c → c ∈ store.coloursAt x)
    (hproper : s.assignment.IsProper (Graph.declared calls)) :
    (∃ found t, run ⟨Graph.declared calls, strategy, narrow⟩ store s = .ok (found, t) ∧
      (found = true ↔ ∃ f, Completes f (Graph.declared calls) store s.assignment) ∧
      (found = true → ∃ f, Completes f (Graph.declared calls) store s.assignment ∧
        ∀ x < (Graph.declared calls).size, t.assignment.colourAt x = some (f x))) ∧
      (∀ o : Options, o.strategy.KeepsContracts (Graph.declared calls) (· = {})) ∧
      ∀ v : VariableSelection, Strategy.KeepsContracts ⟨v.selector, ValueSelector.reversed⟩
        (Graph.declared calls) (· = {}) := by
  obtain ⟨hcoherent, hsize⟩ := harises.coherent
  have hfits : Context.Fits ⟨Graph.declared calls, store, s.assignment⟩ :=
    ⟨Graph.simple_declared calls, hstore, hsize, hcoherent⟩
  refine ⟨?_, fun o ↦ o.keepsContracts _, fun v ↦ ⟨?_, ValueSelector.keepsContract_reversed _ _⟩⟩
  · exact exists_run_eq_ok (p := ⟨Graph.declared calls, strategy, narrow⟩) hstrategy hfits hmemory
      hproper hwithin
  · exact (Options.keepsContracts ⟨v, .inDomainOrder, narrow⟩ _).selectVariable

/-- An edge whose first end has the colour `1`, with the domains `[1, 2]` and `[1, 3]`: a search
that tries the highest colours first succeeds, and gives the other end the colour `3`. -/
theorem run_decides_completion_edge :
    ((Strategy.mk .fewestRemaining .reversed).KeepsContracts (Graph.declared [.edge 4 5]) (· = {}) ∧
      (⟨.ofList [⟨[1, 2]⟩, ⟨[1, 3]⟩]⟩ : Store).size = (Graph.declared [.edge 4 5]).size ∧
      Assignment.Arises (Graph.declared [.edge 4 5]).size ⟨.ofList [some 1, none], [0]⟩ ∧
      (∀ x c, (⟨.ofList [some 1, none], [0]⟩ : Assignment).colourAt x = some c →
        c ∈ (⟨.ofList [⟨[1, 2]⟩, ⟨[1, 3]⟩]⟩ : Store).coloursAt x) ∧
      Assignment.IsProper ⟨.ofList [some 1, none], [0]⟩ (Graph.declared [.edge 4 5])) ∧
    ∃ t, run ⟨Graph.declared [.edge 4 5], ⟨.fewestRemaining, .reversed⟩, false⟩
      ⟨.ofList [⟨[1, 2]⟩, ⟨[1, 3]⟩]⟩
      { assignment := ⟨.ofList [some 1, none], [0]⟩, memory := {} } = .ok (true, t) ∧
      t.assignment.colourAt 1 = some 3 := by
  have hstrategy : (Strategy.mk .fewestRemaining .reversed).KeepsContracts
      (Graph.declared [.edge 4 5]) (· = {}) :=
    ⟨VariableSelector.keepsContract_fewestRemaining _, ValueSelector.keepsContract_reversed _ _⟩
  have harises :
      Assignment.Arises (Graph.declared [.edge 4 5]).size ⟨.ofList [some 1, none], [0]⟩ :=
    .assign (x := 0) (c := 1) .blank rfl
  have hcolour : ∀ x c, (⟨.ofList [some 1, none], [0]⟩ : Assignment).colourAt x = some c →
      x = 0 ∧ c = 1 := by
    intro x c hx
    rw [Assignment.colourAt, Table.getD_ofList] at hx
    rcases x with _ | _ | x
    · exact ⟨rfl, (Option.some.inj hx).symm⟩
    · cases hx
    · cases hx
  have hwithin : ∀ x c, (⟨.ofList [some 1, none], [0]⟩ : Assignment).colourAt x = some c →
      c ∈ (⟨.ofList [⟨[1, 2]⟩, ⟨[1, 3]⟩]⟩ : Store).coloursAt x := by
    intro x c hx
    obtain ⟨rfl, rfl⟩ := hcolour x c hx
    decide
  have hproper :
      Assignment.IsProper ⟨.ofList [some 1, none], [0]⟩ (Graph.declared [.edge 4 5]) := by
    intro x y c hy hx hyc
    obtain rfl := (hcolour x c hx).1
    obtain rfl := (hcolour y c hyc).1
    exact (Graph.simple_declared _).irrefl 0 hy
  have hstore :
      (⟨.ofList [⟨[1, 2]⟩, ⟨[1, 3]⟩]⟩ : Store).size = (Graph.declared [.edge 4 5]).size := by
    decide
  obtain ⟨⟨found, t, hrun, hiff, hfound⟩, -⟩ := run_decides_completion [.edge 4 5]
    ⟨.fewestRemaining, .reversed⟩ (· = {}) hstrategy false _ hstore
    { assignment := ⟨.ofList [some 1, none], [0]⟩, memory := {} } rfl harises hwithin hproper
  have hcompletes : Completes (fun x ↦ if x = 0 then 1 else 3) (Graph.declared [.edge 4 5])
      ⟨.ofList [⟨[1, 2]⟩, ⟨[1, 3]⟩]⟩ ⟨.ofList [some 1, none], [0]⟩ := by
    have hne : ∀ x < 2, ∀ y ∈ (Graph.declared [.edge 4 5]).row x,
        (if x = 0 then 1 else 3) ≠ if y = 0 then 1 else 3 := by decide
    refine ⟨?_, ?_, by decide⟩
    · exact fun x y hy ↦ hne x ((Graph.simple_declared _).lt_size_left hy) y hy
    · intro x c hx
      obtain ⟨rfl, rfl⟩ := hcolour x c hx
      rfl
  obtain rfl : found = true := hiff.2 ⟨_, hcompletes⟩
  obtain ⟨f, hf, hcolours⟩ := hfound rfl
  -- The first end keeps its colour, and of the colours of the other end only `3` differs from it.
  have hzero : f 0 = 1 := hf.extends_assignment 0 1 rfl
  have hne : f 0 ≠ f 1 := hf.proper 0 1 (by decide)
  have hone : f 1 ∈ [1, 3] := hf.within 1 (by decide)
  have hthree : f 1 = 3 := by
    rw [hzero] at hne
    simpa [hne.symm] using hone
  refine ⟨⟨hstrategy, hstore, harises, hwithin, hproper⟩, t, hrun, ?_⟩
  exact hthree ▸ hcolours 1 (by decide)

end Search

end GraphSearch.Colouring
