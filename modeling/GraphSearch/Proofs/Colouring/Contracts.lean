import GraphSearch.Proofs.Colouring.FewestRemaining
import GraphSearch.Proofs.Colouring.LeastConstraining

/-!
# What is asked of selectors

A variable selector keeps its contract if it chooses a variable without a colour whenever there is
one, and a value selector keeps its own if it gives the colours left for a variable, each as often
as it is left, in any order. Both are asked for at the contexts of one graph only, and from the
memories that satisfy an invariant, which they have to keep: a selector may remember things, and may
have been made for the graph at hand.

The standing selectors keep their contracts (`Options.keepsContracts`). That of the fewest remaining
colours does so from the empty memory, to which it returns after each selection; all others use
none.
-/

namespace GraphSearch.Colouring

variable {σ : Type}

namespace Context

/-- The domains and the assignment of a context are those of a simple graph. -/
structure Fits (ctx : Context) : Prop where
  /-- The graph is simple. -/
  simple : ctx.graph.Simple
  /-- Every variable has a domain, and nothing else has. -/
  size_store : ctx.store.size = ctx.graph.size
  /-- Every variable has a place for a colour, and nothing else has. -/
  size_assignment : ctx.assignment.colours.size = ctx.graph.size
  /-- Colours and decisions agree with each other. -/
  coherent : ctx.assignment.Coherent

/-- The variable has no colour yet. -/
def Open (ctx : Context) (x : Variable) : Prop :=
  x < ctx.graph.size ∧ ctx.assignment.colourAt x = none

variable {ctx : Context}

theorem exists_mem_scores_iff {x : Variable} : (∃ n, (x, n) ∈ ctx.scores) ↔ ctx.Open x := by
  simp [scores, Open, mem_allVariables]

/-- The lowest variable that has no colour yet. -/
def firstOpen (ctx : Context) : Option Variable :=
  ctx.graph.allVariables.find? fun x ↦ !(ctx.assignment.colourAt x).isSome

theorem firstOpen_eq_some_iff {x : Variable} :
    ctx.firstOpen = some x ↔ ctx.Open x ∧ ∀ y < x, ctx.assignment.colourAt y ≠ none := by
  rw [firstOpen, Graph.allVariables, Table.keys, List.find?_range_eq_some, List.mem_range]
  simp [Open, Graph.size, Option.isSome_iff_ne_none, and_assoc, and_left_comm]

theorem exists_firstOpen {x : Variable} (h : ctx.Open x) : ∃ y, ctx.firstOpen = some y := by
  refine Option.isSome_iff_exists.1 (List.find?_isSome.2 ⟨x, mem_allVariables.2 h.1, ?_⟩)
  simp [h.2]

namespace Fits

variable (h : ctx.Fits)

include h

theorem sized : ctx.Sized := ⟨h.size_store, h.size_assignment⟩

theorem domainOf_eq_ok {x : Variable} (hx : x < ctx.graph.size) :
    ctx.store.domainOf x = .ok ⟨ctx.store.coloursAt x⟩ :=
  Store.domainOf_eq_ok (h.size_store ▸ hx)

theorem shows {x : Variable} (hx : x < ctx.graph.size) : ctx.Shows x :=
  shows_of_lt_size h.simple h.size_store.ge hx

end Fits

end Context

/-! ### Contracts -/

/-- Of a context of the graph it chooses a variable that has no colour, if there is one. -/
def VariableSelector.KeepsContract (v : VariableSelector σ) (g : Graph) (I : σ → Prop) : Prop :=
  ∀ (ctx : Context) (m : σ), ctx.graph = g → ctx.Fits → I m → (∃ x, ctx.Open x) →
    ∃ r x, v ctx m = .ok r ∧ r.choice = some x ∧ ctx.Open x ∧ I r.memory

/-- For a variable that has no colour it gives a permutation of the domain. -/
def ValueSelector.KeepsContract (v : ValueSelector σ) (g : Graph) (I : σ → Prop) : Prop :=
  ∀ (ctx : Context) (x : Variable) (m : σ), ctx.graph = g → ctx.Fits → I m → ctx.Open x →
    ∃ cs m', v ctx x m = .ok (cs, m') ∧ cs.Perm (ctx.store.coloursAt x) ∧ I m'

/-- Both selectors keep their contracts on the contexts of a graph, and their memory within `I`. -/
structure Strategy.KeepsContracts (s : Strategy σ) (g : Graph) (I : σ → Prop) : Prop where
  /-- The choice of the next variable. -/
  selectVariable : s.selectVariable.KeepsContract g I
  /-- The order of its colours. -/
  orderColours : s.orderColours.KeepsContract g I

/-! ### The standing selectors for variables -/

namespace VariableSelector

variable {ctx : Context}

/-- **The fewest remaining colours keep the contract** from the empty memory, which they leave
behind. -/
theorem keepsContract_fewestRemaining (g : Graph) : fewestRemaining.KeepsContract g (· = {}) := by
  rintro ctx m rfl h rfl ⟨x, hx⟩
  obtain ⟨n, hn⟩ := Context.exists_mem_scores_iff.2 hx
  cases hmin : ctx.scores.argmin Prod.snd with
  | none =>
    rw [List.argmin_eq_none] at hmin
    exact absurd hn (hmin ▸ List.not_mem_nil)
  | some p =>
    have hselected := fewestRemaining_eq_ok h.sized
    rw [hmin] at hselected
    exact ⟨_, p.1, hselected, rfl,
      Context.exists_mem_scores_iff.1 ⟨p.2, List.argmin_mem hmin⟩, rfl⟩

theorem inputOrder_eq_ok (h : ctx.Fits) (m : σ) :
    inputOrder ctx m = .ok ⟨ctx.firstOpen, [], m⟩ := by
  have hfind := findM?_eq_ok fun y hy ↦
    h.sized.isUnassigned_eq_ok (Context.mem_allVariables.1 hy)
  rw [inputOrder, hfind]
  rfl

theorem keepsContract_inputOrder (g : Graph) (I : σ → Prop) :
    inputOrder.KeepsContract g I := by
  rintro ctx m rfl h hm ⟨x, hx⟩
  obtain ⟨y, hy⟩ := Context.exists_firstOpen hx
  refine ⟨_, y, inputOrder_eq_ok h m, hy, (Context.firstOpen_eq_some_iff.1 hy).1, hm⟩

end VariableSelector

/-! ### The standing selectors for the order of colours -/

namespace ValueSelector

theorem inDomainOrder_eq_ok {ctx : Context} (h : ctx.Fits) {x : Variable} (hx : x < ctx.graph.size)
    (m : σ) : inDomainOrder ctx x m = .ok (ctx.store.coloursAt x, m) := by
  rw [inDomainOrder, h.domainOf_eq_ok hx]
  rfl

theorem keepsContract_inDomainOrder (g : Graph) (I : σ → Prop) :
    inDomainOrder.KeepsContract g I := by
  rintro ctx x m rfl h hm hx
  exact ⟨ctx.store.coloursAt x, m, inDomainOrder_eq_ok h hx.1 m, .refl _, hm⟩

theorem keepsContract_reversed (g : Graph) (I : σ → Prop) : reversed.KeepsContract g I := by
  rintro ctx x m rfl h hm hx
  refine ⟨(ctx.store.coloursAt x).reverse, m, ?_, List.reverse_perm _, hm⟩
  rw [reversed, h.domainOf_eq_ok hx.1]
  rfl

theorem keepsContract_leastConstraining (g : Graph) (I : σ → Prop) :
    leastConstraining.KeepsContract g I := by
  rintro ctx x m rfl h hm hx
  exact ⟨_, m, leastConstraining_eq_ok (h.shows hx.1) m, List.mergeSort_perm _ _, hm⟩

end ValueSelector

/-- **The strategies that options stand for keep their contracts** from the empty memory. -/
theorem Options.keepsContracts (o : Options) (g : Graph) :
    o.strategy.KeepsContracts g (· = {}) := by
  obtain ⟨variableSelection, valueSelection, narrow⟩ := o
  constructor
  · cases variableSelection with
    | fewestRemaining => exact VariableSelector.keepsContract_fewestRemaining g
    | inputOrder => exact VariableSelector.keepsContract_inputOrder g _
  · cases valueSelection with
    | leastConstraining => exact ValueSelector.keepsContract_leastConstraining g _
    | inDomainOrder => exact ValueSelector.keepsContract_inDomainOrder g _

end GraphSearch.Colouring
