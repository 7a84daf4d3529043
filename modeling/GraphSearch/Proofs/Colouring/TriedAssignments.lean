import GraphSearch.Proofs.Colouring.Solving

/-!
# The assignments that a search tries

`Search.Explores` tells the assignments that come about by a decision on the way of a search, each
right after it was taken, in their order. Whatever is said of the order in which decisions are
taken, or of how many there are, is said of this list.
-/

namespace GraphSearch.Colouring

namespace Search

variable {σ : Type} {p : Problem σ} {stage : Stage} {store : Store} {s t : State σ} {x : Variable}
  {c : Colour} {cs : List Colour} {tried : List Assignment} {found : Bool}

theorem Explores.of_contradicted (contradicted : s.assignment.isConsistent p.graph x c = .ok false)
    (h : Explores p (.trying x (c :: cs)) store s tried found t) :
    Explores p (.trying x cs) store s tried found t := by
  cases h with
  | skipped _ rest => exact rest
  | wiped consistent => cases contradicted.symm.trans consistent
  | failed consistent => cases contradicted.symm.trans consistent
  | succeeded consistent => cases contradicted.symm.trans consistent

/-- What is tried comes from coherent assignments of the size of the one that the search started
from. -/
theorem Explores.coherent (h : Explores p stage store s tried found t)
    (hs : s.assignment.Coherent) :
    ∀ a ∈ tried, a.Coherent ∧ a.colours.size = s.assignment.colours.size := by
  induction h with
  | complete _ => exact fun a ha ↦ absurd ha List.not_mem_nil
  | givenUp _ _ _ => exact fun a ha ↦ absurd ha List.not_mem_nil
  | branched _ _ _ _ _ ih => exact ih hs
  | exhausted => exact fun a ha ↦ absurd ha List.not_mem_nil
  | skipped _ _ ih => exact ih hs
  | wiped _ attempted retracted _ ih =>
    have hassign := (of_attempt_eq_ok attempted).1
    rw [(assignment_of_retract attempted rfl retracted).1] at ih
    exact List.forall_mem_cons.2
      ⟨⟨hs.assign hassign, (Assignment.of_assign_eq_ok hassign).2.2.1⟩, ih hs⟩
  | failed _ attempted below retracted _ ihbelow ih =>
    have hassign := (of_attempt_eq_ok attempted).1
    have hsize := (Assignment.of_assign_eq_ok hassign).2.2.1
    rw [(assignment_of_retract attempted (below.effect.1 rfl) retracted).1] at ih
    have ihbelow := ihbelow (hs.assign hassign)
    rw [hsize] at ihbelow
    exact List.forall_mem_cons.2
      ⟨⟨hs.assign hassign, hsize⟩, List.forall_mem_append.2 ⟨ihbelow, ih hs⟩⟩
  | succeeded _ attempted _ ih =>
    have hassign := (of_attempt_eq_ok attempted).1
    have hsize := (Assignment.of_assign_eq_ok hassign).2.2.1
    have ih := ih (hs.assign hassign)
    rw [hsize] at ih
    exact List.forall_mem_cons.2 ⟨⟨hs.assign hassign, hsize⟩, ih⟩

end Search

/-- In the run `r` the solver tries these assignments, in this order. -/
def Options.Tries (o : Options) (g : Graph) (k : Nat) (r : Run) (tried : List Assignment) : Prop :=
  ∃ t, Search.Explores (o.problem g) .node (.full g.size k) (.root g) tried r.solution.isSome t ∧
    r.statistics = t.statistics

/-- In every run the solver tries some assignments. -/
theorem exists_tries_of_solve {g : Graph} (hg : g.Simple) {k : Nat} {o : Options} {r : Run}
    (h : solve g k o = .ok r) : ∃ tried, o.Tries g k r tried := by
  obtain ⟨tried, found, t, hexplores, hstatistics, hnone, hsome⟩ := of_solve_eq_ok hg h
  have hfound : r.solution.isSome = found := by
    cases found with
    | false => rw [hnone rfl, Option.isSome_none]
    | true =>
      obtain ⟨s, -, hs⟩ := hsome rfl
      rw [hs, Option.isSome_some]
  exact ⟨tried, t, hfound ▸ hexplores, hstatistics⟩

end GraphSearch.Colouring
