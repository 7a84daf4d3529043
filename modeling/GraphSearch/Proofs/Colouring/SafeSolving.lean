import GraphSearch.CommandLine.Colour
import GraphSearch.Proofs.Colouring.Assembly
import GraphSearch.Proofs.Colouring.Solving
import Mathlib

/-!
# From the declarations to the report without a fault

Whatever is declared, the way from there to a colouring meets no fault (`solve_meets_no_fault`). The
graph is put together in whatever order its parts come, and seen to be symmetric. The search finds
every label, neighbourhood, domain and colour that it asks for, assigns no variable twice, takes
back the decision that it took, and reads its solution off a complete assignment: anything else
would be a `Fault`. Nor does the program reject a solution when it checks it once more, since what
was found is the colouring of a proper map (`verify_ofColouring`).

One account is kept at every revision of an arc, whatever the store is: the colours that are left
and those that were counted as taken away are together as many as before
(`Store.sizeOf_of_revise_eq_ok`).
-/

namespace GraphSearch.Colouring

open CommandLine.Colour (Settings verify search)

namespace Store

variable {s t : Store}

theorem sizeOf_eq_ok {x : Variable} (h : x < s.size) :
    s.sizeOf x = .ok (s.coloursAt x).length := by
  rw [sizeOf, domainOf_eq_ok h]
  rfl

/-- **Revising takes away as many colours as it counts.** -/
theorem sizeOf_of_revise_eq_ok {a : Arc} {n : Nat} (h : s.revise a = .ok (n, t)) :
    ∃ before after, s.sizeOf a.target = .ok before ∧ t.sizeOf a.target = .ok after ∧
      after + n = before := by
  have htarget : a.target < s.size := by
    obtain ⟨_, -, h⟩ := bind_eq_ok_iff.1 h
    obtain ⟨_, htarget, -⟩ := bind_eq_ok_iff.1 h
    exact (domainOf_eq_ok_iff.1 htarget).1
  obtain ⟨hsize, rfl, ht⟩ := coloursAt_of_revise_eq_ok h
  refine ⟨_, _, sizeOf_eq_ok htarget, sizeOf_eq_ok (hsize ▸ htarget), ?_⟩
  rw [ht, if_pos rfl, Nat.add_comm]
  exact (List.length_eq_length_filter_add (s.only a.support)).symm

end Store

/-- What the program checks of a solution holds of every proper colouring. -/
theorem verify_ofColouring {g : Graph} (hg : g.Simple) {f : Variable → Colour}
    (hf : g.IsProper f) : verify g (some (.ofColouring g f)) = .ok () := by
  rw [verify, Solution.isCompleteFor_ofColouring, ok_bind, if_pos rfl,
    Solution.violated_ofColouring hg hf]
  rfl

/-- What is found for a declared graph passes the checks of the program. -/
theorem verify_of_solve {calls : List Declaration} {k : Nat} {o : Options} {r : Run}
    (h : solve (Graph.declared calls) k o = .ok r) :
    verify (Graph.declared calls) r.solution = .ok () := by
  have hg := Graph.simple_declared calls
  obtain ⟨r', hr', h⟩ := bind_eq_ok_iff.1 h
  obtain rfl := Except.ok.inj h
  obtain ⟨r'', hr'', -, hsome⟩ :=
    exists_solveWith_eq_ok (k := k) hg (o.keepsContracts _) rfl o.narrow
  obtain rfl := Except.ok.inj (hr''.symm.trans hr')
  show verify (Graph.declared calls) r''.solution = .ok ()
  cases hs : r''.solution with
  | none => rfl
  | some s =>
    obtain ⟨f, hf, rfl⟩ := hsome s hs
    exact verify_ofColouring hg hf.proper

/-- **No fault is met on the way from the declarations to the report.** Whatever is declared,
whatever order the sets give it back in, the same graph is put together and seen to be symmetric.
Every revision of an arc takes away as many colours as it counts. Whatever the palette and the
options are, the search answers, and the program reports what it has found. -/
theorem solve_meets_no_fault (calls : List Declaration) :
    (∀ labels edges, labels.Perm (Declarations.ofCalls calls).labels →
      edges.Perm (Declarations.ofCalls calls).edges →
      Graph.assemble labels edges = .ok (Graph.declared calls)) ∧
    (Graph.declared calls).isSymmetric = .ok true ∧
    (∀ (s t : Store) (a : Arc) (n : Nat), s.revise a = .ok (n, t) →
      ∃ before after, s.sizeOf a.target = .ok before ∧ t.sizeOf a.target = .ok after ∧
        after + n = before) ∧
    (∀ (k : Nat) (o : Options), ∃ r, solve (Graph.declared calls) k o = .ok r ∧
      verify (Graph.declared calls) r.solution = .ok ()) ∧
    ∀ (k : Nat) (s : Settings), ∃ r, solve (Graph.declared calls) k s.options = .ok r ∧
      search s ⟨Graph.declared calls, k⟩ = .ok r := by
  have hanswers : ∀ (k : Nat) (o : Options), ∃ r, solve (Graph.declared calls) k o = .ok r ∧
      verify (Graph.declared calls) r.solution = .ok () := by
    intro k o
    obtain ⟨r, hr, -⟩ := exists_solve_eq_ok calls k o
    exact ⟨r, hr, verify_of_solve hr⟩
  refine ⟨?_, Graph.isSymmetric_declared calls, ?_, hanswers, ?_⟩
  · intro labels edges hlabels hedges
    exact Declarations.assemble_eq_ok (Declarations.wellFormed_ofCalls calls)
      (Declarations.pairwise_edges_ofCalls calls) hlabels hedges
  · intro s t a n h
    exact Store.sizeOf_of_revise_eq_ok h
  · intro k s
    obtain ⟨r, hr, hverify⟩ := hanswers k s.options
    refine ⟨r, hr, ?_⟩
    rw [search, hr, ok_bind, hverify, ok_bind]
    rfl

/-- Two edges at `4`, of which one is declared twice and a self loop is refused: the sets may give
labels and edges back out of order. An arc takes one of two colours from its target, and with a
palette of two colours a colouring is reported. -/
theorem solve_meets_no_fault_shuffled :
    Graph.assemble [9, 4, 5] [(4, 9), (4, 5)] =
        .ok (Graph.declared [.edge 5 4, .edge 3 3, .edge 9 4, .edge 4 5]) ∧
      (∃ t, Store.revise ⟨.ofList [⟨[2, 3]⟩, ⟨[3]⟩]⟩ ⟨0, 1⟩ = .ok (1, t) ∧
        t.sizeOf 0 = .ok 1) ∧
      ∃ r, search {} ⟨Graph.declared [.edge 5 4, .edge 3 3, .edge 9 4, .edge 4 5], 2⟩ = .ok r ∧
        r.solution = some ⟨.ofList [4, 5, 9], .ofList [1, 2, 2]⟩ := by
  obtain ⟨hassemble, -, hrevise, -, hsearch⟩ :=
    solve_meets_no_fault [.edge 5 4, .edge 3 3, .edge 9 4, .edge 4 5]
  have hrevised : Store.revise ⟨.ofList [⟨[2, 3]⟩, ⟨[3]⟩]⟩ ⟨0, 1⟩ =
      .ok (1, ⟨.ofList [⟨[2]⟩, ⟨[3]⟩]⟩) := by decide
  have hsolved : Run.solution <$> solve
      (Graph.declared [.edge 5 4, .edge 3 3, .edge 9 4, .edge 4 5]) 2 (Settings.options {}) =
        .ok (some ⟨.ofList [4, 5, 9], .ofList [1, 2, 2]⟩) := by cbv
  refine ⟨hassemble _ _ (by decide) (by decide), ⟨_, hrevised, ?_⟩, ?_⟩
  · obtain ⟨before, after, hbefore, hafter, hsum⟩ := hrevise _ _ _ _ hrevised
    obtain rfl := Except.ok.inj hbefore
    obtain rfl : after = 1 := Nat.succ.inj hsum
    exact hafter
  · obtain ⟨r, hr, hreported⟩ := hsearch 2 {}
    refine ⟨r, hreported, ?_⟩
    rw [hr] at hsolved
    exact Except.ok.inj hsolved

end GraphSearch.Colouring
