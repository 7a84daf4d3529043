import GraphSearch.Proofs.Colouring.GuardedSearch
import Mathlib

/-!
# The nodes of a search with narrowing

If a colour that is tried becomes the only one of its variable, the domains at a node reflect every
decision (`Store.Reflects`): none of them is empty, that of a variable with a colour has this colour
alone, and no variable has the colour of a neighbour left. The step from a node to a child
(`Store.Reflects.attempt`) rests on two things. Narrowing a domain without repetitions to a colour
of it leaves that colour alone. And propagation that succeeds empties no domain, so that a domain of
one colour keeps it, and it settles every arc, which takes the colour from the neighbours.

So the check on the neighbours never fails: the colours that are tried are left for their variable,
and then no neighbour has them (`Position.IsNarrowed.isConsistent`). As the check is asked of no
other colours, the search without it is the same search (`solve_narrowed_nodes`).
-/

namespace GraphSearch.Colouring

open Relation Search

variable {σ : Type} {g : Graph} {a : Assignment} {p : Problem σ} {I : σ → Prop}
  {store d e : Store} {s u w : State σ} {x : Variable} {c : Colour} {cs : List Colour}

/-! ### One decision -/

/-- The domains of the variables reflect what is assigned. -/
structure Store.Reflects (store : Store) (g : Graph) (a : Assignment) : Prop where
  /-- Every variable has a domain, and nothing else has. -/
  size_eq : store.size = g.size
  /-- No domain is empty. -/
  ne_nil : ∀ x < g.size, store.coloursAt x ≠ []
  /-- A variable with a colour has this colour alone left. -/
  eq_singleton : ∀ x c, a.colourAt x = some c → store.coloursAt x = [c]
  /-- No variable has the colour of a neighbour left. -/
  not_mem : ∀ x, ∀ y ∈ g.row x, ∀ c, a.colourAt y = some c → c ∉ store.coloursAt x

namespace Store

/-- Before the first decision nothing is asked but that the palette is not empty. -/
theorem reflects_full {k : Nat} (hk : 1 ≤ k) (g : Graph) :
    (full g.size k).Reflects g (.blank g.size) where
  size_eq := size_full _ _
  ne_nil x hx := List.ne_nil_of_mem ((mem_coloursAt_full hx).2 ⟨le_rfl, hk⟩)
  eq_singleton x c hx := by cases (Assignment.colourAt_blank _ x).symm.trans hx
  not_mem x y _ c hy := by cases (Assignment.colourAt_blank _ y).symm.trans hy

/-- Where the domains reflect what is assigned, every colour that is left is consistent. -/
theorem Reflects.isConsistent (h : store.Reflects g a) (hg : g.Simple)
    (hsize : a.colours.size = g.size) (hx : x < g.size) (hc : c ∈ store.coloursAt x) :
    a.isConsistent g x c = .ok true :=
  Assignment.isConsistent_eq_ok_true hg hsize hx fun y hy hcolour ↦ h.not_mem x y hy c hcolour hc

end Store

/-- Narrowing leaves a variable the colour that is tried alone. -/
theorem Search.coloursAt_of_branch (hnarrow : p.narrow = true) (hascending : store.Ascending)
    (hc : c ∈ store.coloursAt x) (h : p.branch store x c = .ok e) (z : Variable) :
    e.coloursAt z = if z = x then [c] else store.coloursAt z := by
  rw [Problem.branch, if_pos hnarrow] at h
  obtain ⟨⟨_, e'⟩, hset, rfl⟩ := map_eq_ok_iff.1 h
  rw [(Store.coloursAt_of_narrow_eq_ok hset).2]
  have honce : (store.coloursAt x).count c = 1 :=
    List.count_eq_one_of_mem ((hascending x).imp fun hlt ↦ hlt.ne) hc
  split
  · rename_i hz
    rw [hz, List.filter_beq, honce]
    rfl
  · rfl

/-- **The domains of a child reflect its decision**, and those before it. -/
theorem Store.Reflects.attempt (h : store.Reflects p.graph s.assignment)
    (hnarrow : p.narrow = true) (hfits : (p.contextAt store s).Fits)
    (hascending : store.Ascending) (hc : c ∈ store.coloursAt x)
    (hattempt : attempt p store x c s = .ok (some d, u)) : d.Reflects p.graph u.assignment := by
  obtain ⟨e, hbranch, hsound⟩ := exists_sound_of_attempt hfits hattempt
  have hcolours := coloursAt_of_branch hnarrow hascending hc hbranch
  obtain ⟨-, -, -, -, hcolour⟩ := Assignment.of_assign_eq_ok (of_attempt_eq_ok hattempt).1
  have hfitsu := (fits_of_attempt hfits hattempt).1
  have husize : u.assignment.colours.size = p.graph.size := hfitsu.size_assignment
  have hne : ∀ y < p.graph.size, d.coloursAt y ≠ [] := by
    intro y hy hnil
    have hbefore : e.coloursAt y = [] := hsound.eq_nil y hnil
    rw [hcolours] at hbefore
    split at hbefore
    · cases hbefore
    · exact h.ne_nil y hy hbefore
  have hsingle : ∀ y b, u.assignment.colourAt y = some b → d.coloursAt y = [b] := by
    intro y b hy
    have hyg : y < p.graph.size := husize ▸ Assignment.lt_size_of_colourAt_eq_some hy
    have hbefore : e.coloursAt y = [b] := by
      rw [hcolour] at hy
      rw [hcolours]
      split at hy
      · rw [if_pos ‹_›, Option.some.inj hy]
      · rw [if_neg ‹_›, h.eq_singleton y b hy]
    -- What is left of one colour is that colour, or nothing.
    have hleft : d.coloursAt y = [] ∨ d.coloursAt y = [b] :=
      List.sublist_singleton.1 (hbefore ▸ hsound.sublist y)
    exact hleft.resolve_left (hne y hyg)
  refine ⟨hfitsu.size_store, hne, hsingle, fun y z hz b hb ↦ ?_⟩
  have honly : ∀ b', b' ∈ d.coloursAt z ↔ b' = b := by simp [hsingle z b hb]
  exact hsound.isGreatest.1.closed y z b hz honly

/-! ### Along a search -/

namespace Search.Position

/-- What is known where a search with narrowing passes. -/
structure IsNarrowed (p : Problem σ) (I : σ → Prop) (v : Position σ) : Prop where
  /-- Graph, domains and assignment fit each other. -/
  fits : (p.contextAt v.store v.state).Fits
  /-- The colours that are still to be tried are left for their variable, which has none. -/
  stage : v.stage.Fits (p.contextAt v.store v.state)
  /-- The memory is lawful. -/
  memory : I v.state.memory
  /-- Domains are in order and repeat no colour. -/
  ascending : v.store.Ascending
  /-- The domains reflect what is assigned. -/
  reflects : v.store.Reflects p.graph v.state.assignment

namespace IsNarrowed

/-- Once the first colour is dealt with, the search goes on from the same assignment. -/
theorem tail (h : IsNarrowed p I ⟨.trying x (c :: cs), store, s⟩)
    (hw : w.assignment = s.assignment) (hm : I w.memory) :
    IsNarrowed p I ⟨.trying x cs, store, w⟩ where
  fits := contextAt_congr hw ▸ h.fits
  stage := h.stage.tail hw
  memory := hm
  ascending := h.ascending
  reflects := (hw.symm ▸ h.reflects : store.Reflects p.graph w.assignment)

/-- **Every step of a search with narrowing leads to where the domains reflect what is assigned.**
-/
theorem passes {v v' : Position σ} (h : v.IsNarrowed p I)
    (hp : p.strategy.KeepsContracts p.graph I) (hnarrow : p.narrow = true)
    (hpasses : Passes p v v') : v'.IsNarrowed p I := by
  have hfits := h.fits
  have hstage := h.stage
  cases hpasses with
  | branched incomplete selected choice ordered =>
    obtain ⟨hopen, hperm, hm⟩ :=
      of_selected hp hfits h.memory incomplete selected choice ordered
    exact ⟨hfits, ⟨hopen, hperm.subset⟩, hm, h.ascending, h.reflects⟩
  | skipped _ => exact h.tail rfl h.memory
  | wiped _ attempted retracted =>
    obtain ⟨hassignment, hmemory⟩ := assignment_of_retract attempted rfl retracted
    exact h.tail hassignment (hmemory ▸ (of_attempt_eq_ok attempted).2.1 ▸ h.memory)
  | descended _ attempted =>
    obtain ⟨hfitsu, hsub⟩ := fits_of_attempt hfits attempted
    have hc := hstage.2 List.mem_cons_self
    exact ⟨hfitsu, trivial, (of_attempt_eq_ok attempted).2.1 ▸ h.memory,
      h.ascending.of_sublist hsub, h.reflects.attempt hnarrow hfits h.ascending hc attempted⟩
  | returned _ attempted below retracted =>
    have hmu := (of_attempt_eq_ok attempted).2.1 ▸ h.memory
    have hbelow := below.verdict hp (fits_of_attempt hfits attempted).1 trivial hmu
    obtain ⟨hassignment, hmemory⟩ :=
      assignment_of_retract attempted (below.effect.1 rfl) retracted
    exact h.tail hassignment (hmemory ▸ hbelow.memory)

theorem reflTransGen {v v' : Position σ} (h : v.IsNarrowed p I)
    (hp : p.strategy.KeepsContracts p.graph I) (hnarrow : p.narrow = true)
    (hpasses : ReflTransGen (Passes p) v v') : v'.IsNarrowed p I := by
  induction hpasses with
  | refl => exact h
  | tail _ hlast ih => exact ih.passes hp hnarrow hlast

/-- **The check accepts every colour that is to be tried.** -/
theorem isConsistent {v : Position σ} (h : v.IsNarrowed p I) (hstage : v.stage = .trying x cs)
    (hc : c ∈ cs) : v.state.assignment.isConsistent p.graph x c = .ok true := by
  obtain ⟨hopen, hcs⟩ : (Stage.trying x cs).Fits (p.contextAt v.store v.state) := hstage ▸ h.stage
  exact h.reflects.isConsistent h.fits.simple h.fits.size_assignment hopen.1 (hcs hc)

end IsNarrowed

end Search.Position

/-! ### Solving -/

/-- Wherever the solver passes with narrowing, the domains reflect what is assigned. -/
theorem isNarrowed_of_passes (hg : g.Simple) {k : Nat} (hk : 1 ≤ k) {o : Options}
    (ho : o.narrow = true) {v : Position Memory}
    (h : ReflTransGen (Passes (o.problem g)) ⟨.node, .full g.size k, .root g⟩ v) :
    v.IsNarrowed (o.problem g) (· = {}) := by
  have hroot : Position.IsNarrowed (o.problem g) (· = {}) ⟨.node, .full g.size k, .root g⟩ :=
    ⟨Context.fits_full_blank hg k, trivial, rfl, Store.ascending_full _ k, Store.reflects_full hk g⟩
  exact hroot.reflTransGen (o.keepsContracts g) ho h

/-- **Narrowing makes the check on the neighbours superfluous.** Whatever is declared, whatever the
palette is unless it is empty, and whatever the heuristics are, wherever the solver passes with
narrowing no domain is empty, a variable that has a colour has no other left, and no variable has
the colour of a neighbour left. So the check accepts every colour that is ever to be tried, and the
solver without the check comes to the same solution with the same counts and the same events. -/
theorem solve_narrowed_nodes (calls : List Declaration) (k : Nat) (hk : 1 ≤ k)
    (v : VariableSelection) (c : ValueSelection) :
    (∀ position : Position Memory,
      ReflTransGen (Passes (Options.problem ⟨v, c, true⟩ (Graph.declared calls)))
        ⟨.node, .full (Graph.declared calls).size k, .root (Graph.declared calls)⟩ position →
      position.store.Reflects (Graph.declared calls) position.state.assignment ∧
        ∀ x cs, position.stage = .trying x cs → ∀ b ∈ cs,
          position.state.assignment.isConsistent (Graph.declared calls) x b = .ok true) ∧
      ∃ r, solve (Graph.declared calls) k ⟨v, c, true⟩ = .ok r ∧
        solve (Graph.declared calls) k ⟨v, c, true⟩ .none = .ok r := by
  have hg := Graph.simple_declared calls
  refine ⟨fun position hpasses ↦ ?_, ?_⟩
  · have hnarrowed := isNarrowed_of_passes hg hk rfl hpasses
    exact ⟨hnarrowed.reflects, fun x cs hstage b hb ↦ hnarrowed.isConsistent hstage hb⟩
  · obtain ⟨r, hr, -⟩ := exists_solve_eq_ok calls k ⟨v, c, true⟩
    have hcoherent := (Context.fits_full_blank hg k).coherent
    have hrun : run (Options.problem ⟨v, c, true⟩ (Graph.declared calls))
        (.full (Graph.declared calls).size k) (.root (Graph.declared calls)) .none =
        run (Options.problem ⟨v, c, true⟩ (Graph.declared calls))
          (.full (Graph.declared calls).size k) (.root (Graph.declared calls)) := by
      refine run_of_agreesAt hcoherent fun position hpasses x b cs hstage ↦ ?_
      have hnarrowed := isNarrowed_of_passes hg hk rfl hpasses
      exact (hnarrowed.isConsistent hstage List.mem_cons_self).symm
    refine ⟨r, hr, ?_⟩
    rw [solve_of_run_eq hrun, hr]

/-- On an edge with two colours the solver gives the first end the colour `1` and goes on where this
is the only colour left for it, the other end does not have it left, and has not lost all. It finds
the same solution without the check. -/
theorem solve_narrowed_nodes_edge :
    1 ≤ 2 ∧
      (∃ position : Position Memory,
        ReflTransGen
          (Passes
            (Options.problem ⟨.inputOrder, .inDomainOrder, true⟩ (Graph.declared [.edge 4 5])))
          ⟨.node, .full 2 2, .root (Graph.declared [.edge 4 5])⟩ position ∧
        position.stage = .node ∧ position.state.assignment = ⟨.ofList [some 1, none], [0]⟩ ∧
        position.store.coloursAt 0 = [1] ∧ 1 ∉ position.store.coloursAt 1 ∧
        position.store.coloursAt 1 ≠ []) ∧
      ∃ r, solve (Graph.declared [.edge 4 5]) 2 ⟨.inputOrder, .inDomainOrder, true⟩ = .ok r ∧
        solve (Graph.declared [.edge 4 5]) 2 ⟨.inputOrder, .inDomainOrder, true⟩ .none = .ok r ∧
        r.solution = some ⟨.ofList [4, 5], .ofList [1, 2]⟩ := by
  obtain ⟨hnodes, r, hr, hguarded⟩ :=
    solve_narrowed_nodes [.edge 4 5] 2 (by decide) .inputOrder .inDomainOrder
  have hselects : Passes
      (Options.problem ⟨.inputOrder, .inDomainOrder, true⟩ (Graph.declared [.edge 4 5]))
      ⟨.node, .full 2 2, .root (Graph.declared [.edge 4 5])⟩
      ⟨.trying 0 [1, 2], .full 2 2, .root (Graph.declared [.edge 4 5])⟩ :=
    .branched (σ := Memory) (r := ⟨some 0, [], {}⟩) (m := {}) rfl rfl rfl rfl
  have hattempt : (fun r ↦ (r.1.isSome, r.2.assignment)) <$>
      attempt (Options.problem ⟨.inputOrder, .inDomainOrder, true⟩ (Graph.declared [.edge 4 5]))
        (.full 2 2) 0 1 (.root (Graph.declared [.edge 4 5])) =
          .ok (true, ⟨.ofList [some 1, none], [0]⟩) := by cbv
  obtain ⟨⟨branch, u⟩, hattempt, hu⟩ := map_eq_ok_iff.1 hattempt
  obtain ⟨hbranch, hassignment⟩ := Prod.mk.inj hu
  obtain ⟨d, rfl⟩ := Option.isSome_iff_exists.1 hbranch
  have hpasses := (ReflTransGen.single hselects).tail (.descended rfl hattempt)
  have hreflects : d.Reflects (Graph.declared [.edge 4 5]) ⟨.ofList [some 1, none], [0]⟩ :=
    hassignment ▸ (hnodes _ hpasses).1
  refine ⟨by decide, ⟨_, hpasses, rfl, hassignment, ?_, ?_, ?_⟩, r, hr, hguarded, ?_⟩
  · exact hreflects.eq_singleton 0 1 rfl
  · exact hreflects.not_mem 1 0 (by decide) 1 rfl
  · exact hreflects.ne_nil 1 (by decide)
  · have hsolution : Run.solution <$>
        solve (Graph.declared [.edge 4 5]) 2 ⟨.inputOrder, .inDomainOrder, true⟩ =
          .ok (some ⟨.ofList [4, 5], .ofList [1, 2]⟩) := by cbv
    rw [hr] at hsolution
    exact Except.ok.inj hsolution

end GraphSearch.Colouring
