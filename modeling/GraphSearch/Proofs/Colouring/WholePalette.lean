import GraphSearch.Proofs.Colouring.ClosedStore
import GraphSearch.Proofs.Colouring.Contracts

/-!
# When every variable has the whole palette

In the store in which every variable has the whole palette nothing tells the variables or the
colours apart. A single colour is left for a variable only if the palette has no other, so
propagation changes nothing (`propagate_full`), or it empties a domain with the first arc that there
is (`store_eq_full_of_propagate`).

Neither do the standing selectors: all variables have equally many colours left, so that one with
the fewest is the lowest, and all colours of a variable are left for each of its neighbours, so that
those which the fewest have come as they stand. So whatever the options are, the strategy is plain
on such a store (`Strategy.IsPlain`).
-/

namespace GraphSearch.Colouring

variable {g : Graph} {n k : Nat}

/-! ### Revising arcs -/

namespace Store

/-- No colour is the only one of a variable, unless the palette has one colour. -/
theorem only_full (hk : k ≠ 1) (y : Variable) (c : Colour) : (full n k).only y c = false := by
  rw [← Bool.not_eq_true, only_iff]
  intro honly
  rcases Nat.lt_or_ge y n with hy | hy
  · have hmem : ∀ c', 1 ≤ c' ∧ c' < 1 + k ↔ c' = c := fun c' ↦ by
      rw [← honly c', coloursAt_full k hy, List.mem_range'_1]
    have := (hmem c).2 rfl
    have hone := (hmem 1).1 (by omega)
    have htwo := (hmem 2).1 (by omega)
    omega
  · have hc := (honly c).2 rfl
    rw [coloursAt_of_size_le (by rwa [size_full])] at hc
    cases hc

/-- Revising an arc changes nothing, unless the palette has one colour. -/
theorem revise_full (hk : k ≠ 1) {a : Arc} (htarget : a.target < n) (hsupport : a.support < n) :
    (full n k).revise a = .ok (0, full n k) := by
  obtain ⟨m, t, hrevise⟩ := exists_revise_eq_ok (s := full n k) (a := a)
    (by rwa [size_full]) (by rwa [size_full])
  obtain ⟨-, hm, -⟩ := coloursAt_of_revise_eq_ok hrevise
  have hnone : ((full n k).coloursAt a.target).filter ((full n k).only a.support) = [] :=
    List.filter_eq_nil_iff.2 fun c _ ↦ by rw [only_full hk]; exact Bool.false_ne_true
  obtain rfl : m = 0 := by rw [hm, hnone]; rfl
  rw [hrevise, eq_of_revise_eq_ok_zero hrevise]

/-- With one colour, revising an arc empties its target. -/
theorem revise_full_one {a : Arc} (htarget : a.target < n) (hsupport : a.support < n) :
    ∃ t, (full n 1).revise a = .ok (1, t) ∧ t.coloursAt a.target = [] := by
  obtain ⟨m, t, hrevise⟩ := exists_revise_eq_ok (s := full n 1) (a := a)
    (by rwa [size_full]) (by rwa [size_full])
  obtain ⟨-, hm, ht⟩ := coloursAt_of_revise_eq_ok hrevise
  have honly : (full n 1).only a.support 1 = true := by
    rw [only_iff]
    intro c
    rw [coloursAt_full 1 hsupport]
    simp
  have htarget : (full n 1).coloursAt a.target = [1] := coloursAt_full 1 htarget
  obtain rfl : m = 1 := by rw [hm, htarget]; simp [honly]
  exact ⟨t, hrevise, by rw [ht, if_pos rfl, htarget]; simp [honly]⟩

end Store

/-! ### Propagation -/

/-- Arcs whose revision changes nothing are only counted. -/
theorem Propagation.drain_of_idle {s : Store} {arcs : List Arc}
    (h : ∀ a ∈ arcs, s.revise a = .ok (0, s)) (c : Statistics) :
    drain g arcs s c =
      .ok ⟨s, none, { c with arcsProcessed := c.arcsProcessed + arcs.length }⟩ := by
  induction arcs generalizing c with
  | nil => rw [drain]; rfl
  | cons a rest ih =>
    rw [drain_of_revise_zero (h a List.mem_cons_self),
      ih fun b hb ↦ h b (List.mem_cons_of_mem a hb)]
    simp only [Statistics.revised, if_true, Nat.add_zero, List.length_cons]
    rw [Nat.add_right_comm, Nat.add_assoc]

theorem Graph.Simple.lt_size_of_mem_arcs (hg : g.Simple) {a : Arc} (ha : a ∈ g.arcs) :
    a.target < g.size ∧ a.support < g.size :=
  ⟨hg.lt_size_left (Graph.mem_arcs.1 ha), hg.lt_size_right (Graph.mem_arcs.1 ha)⟩

/-- **Propagating the whole palette changes nothing**, unless it has one colour. -/
theorem propagate_full (hg : g.Simple) (hk : k ≠ 1) (c : Propagation.Statistics) :
    propagate g (.full g.size k) c = .ok ⟨.full g.size k, none,
      { c with calls := c.calls + 1, arcsProcessed := c.arcsProcessed + g.arcs.length }⟩ := by
  have hidle : ∀ a ∈ g.arcs, (Store.full g.size k).revise a = .ok (0, .full g.size k) := by
    intro a ha
    obtain ⟨htarget, hsupport⟩ := hg.lt_size_of_mem_arcs ha
    exact Store.revise_full hk htarget hsupport
  exact Propagation.drain_of_idle hidle _

/-- If propagating the whole palette empties no domain, it leaves the whole palette. -/
theorem store_eq_full_of_propagate (hg : g.Simple) {c : Propagation.Statistics}
    {o : Propagation.Outcome} (h : propagate g (.full g.size k) c = .ok o)
    (hnone : o.wipedOut = none) : o.store = .full g.size k := by
  rcases eq_or_ne k 1 with rfl | hk
  · rw [propagate] at h
    cases harcs : g.arcs with
    | nil =>
      rw [harcs, Propagation.drain] at h
      exact (congrArg Propagation.Outcome.store (Except.ok.inj h)).symm
    | cons a rest =>
      -- With one colour the first arc empties its target.
      obtain ⟨htarget, hsupport⟩ := hg.lt_size_of_mem_arcs (harcs ▸ List.mem_cons_self)
      obtain ⟨t, hrevise, hgone⟩ := Store.revise_full_one htarget hsupport
      rw [harcs, Propagation.drain_of_revise_succ hg hrevise htarget (Store.size_full _ _).ge,
        if_pos hgone] at h
      rw [← Except.ok.inj h] at hnone
      cases hnone
  · rw [propagate_full hg hk] at h
    exact (congrArg Propagation.Outcome.store (Except.ok.inj h)).symm

/-! ### Selectors -/

variable {σ : Type}

/-- Where every variable has the whole palette, the selectors choose the lowest variable that has no
colour, and leave the colours and their memory as they are. -/
structure Strategy.IsPlain (s : Strategy σ) (g : Graph) (k : Nat) (m : σ) : Prop where
  /-- The choice of the next variable. -/
  selectVariable : ∀ a, Context.Fits ⟨g, .full g.size k, a⟩ →
    ∃ r, s.selectVariable ⟨g, .full g.size k, a⟩ m = .ok r ∧
      r.choice = Context.firstOpen ⟨g, .full g.size k, a⟩ ∧ r.memory = m
  /-- The order of its colours. -/
  orderColours : ∀ a x, Context.Fits ⟨g, .full g.size k, a⟩ → x < g.size →
    s.orderColours ⟨g, .full g.size k, a⟩ x m = .ok (List.range' 1 k, m)

variable {a : Assignment}

namespace VariableSelector

/-- The first of several variables with equally many colours leads. -/
theorem argmin_eq_head? {ps : List (Variable × Nat)} (h : ∀ p ∈ ps, p.2 = k) :
    ps.argmin Prod.snd = ps.head? := by
  cases ps with
  | nil => rfl
  | cons q ps =>
    rw [List.argmin_cons, List.head?_cons]
    cases htail : ps.argmin Prod.snd with
    | none => rfl
    | some p =>
      have hp := h p (List.mem_cons_of_mem _ (List.argmin_mem htail))
      have hq := h q List.mem_cons_self
      simp [hp, hq]

theorem fewestRemaining_full (h : Context.Fits ⟨g, .full g.size k, a⟩) :
    ∃ r, fewestRemaining ⟨g, .full g.size k, a⟩ {} = .ok r ∧
      r.choice = Context.firstOpen ⟨g, .full g.size k, a⟩ ∧ r.memory = {} := by
  have hscores : ∀ p ∈ Context.scores ⟨g, .full g.size k, a⟩, p.2 = k := by
    rintro _ hp
    obtain ⟨x, hx, rfl⟩ := List.mem_map.1 hp
    have hx := Context.mem_allVariables.1 (List.mem_filter.1 hx).1
    show ((Store.full g.size k).coloursAt x).length = k
    rw [Store.coloursAt_full k hx, List.length_range']
  refine ⟨_, fewestRemaining_eq_ok h.sized, ?_, rfl⟩
  show (List.argmin Prod.snd _).map Prod.fst = _
  rw [argmin_eq_head? hscores, Context.scores, List.head?_map, List.head?_filter, Option.map_map]
  exact congrFun Option.map_id _

end VariableSelector

namespace ValueSelector

/-- Each colour of the palette has all neighbours for rivals. -/
theorem rivalCount_full (hg : g.Simple) {x : Variable} {c : Colour} (hc : c ∈ List.range' 1 k) :
    Context.rivalCount ⟨g, .full g.size k, a⟩ x c = (g.row x).length := by
  refine List.countP_eq_length.2 fun y hy ↦ ?_
  rw [Store.coloursAt_full k (hg.lt_size_right hy)]
  exact List.contains_iff_mem.2 hc

/-- Colours with equally many rivals stay in their order. -/
theorem leastConstraining_full (hg : g.Simple) {x : Variable} (hx : x < g.size) (m : σ) :
    leastConstraining ⟨g, .full g.size k, a⟩ x m = .ok (List.range' 1 k, m) := by
  have hshows : Context.Shows ⟨g, .full g.size k, a⟩ x :=
    Context.shows_of_lt_size hg (Store.size_full ..).ge hx
  have hsorted : (List.range' 1 k).Pairwise fun b c ↦
      decide (Context.rivalCount ⟨g, .full g.size k, a⟩ x b ≤
        Context.rivalCount ⟨g, .full g.size k, a⟩ x c) = true := by
    refine List.pairwise_of_forall_mem_list fun b hb c hc ↦ decide_eq_true ?_
    rw [rivalCount_full hg hb, rivalCount_full hg hc]
  rw [leastConstraining_eq_ok hshows, Store.coloursAt_full k hx, List.mergeSort_of_pairwise hsorted]

end ValueSelector

/-- **The strategies that options stand for are plain**, whatever the options are. -/
theorem Options.isPlain (o : Options) (g : Graph) (k : Nat) : o.strategy.IsPlain g k {} := by
  obtain ⟨variableSelection, valueSelection, narrow⟩ := o
  constructor
  · intro a h
    cases variableSelection with
    | fewestRemaining => exact VariableSelector.fewestRemaining_full h
    | inputOrder => exact ⟨_, VariableSelector.inputOrder_eq_ok (σ := Memory) h {}, rfl, rfl⟩
  · intro a x h hx
    cases valueSelection with
    | leastConstraining => exact ValueSelector.leastConstraining_full h.simple hx _
    | inDomainOrder =>
      have hordered := ValueSelector.inDomainOrder_eq_ok h hx ({} : Memory)
      rwa [Store.coloursAt_full k hx] at hordered

end GraphSearch.Colouring
