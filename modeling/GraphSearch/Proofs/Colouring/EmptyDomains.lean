import GraphSearch.Proofs.Colouring.ClosedStore

/-!
# Domains that were empty before

The contract of a propagation is that it ends well only if every domain has a colour left, and
otherwise names a variable that has none (`Propagation.Outcome.KeepsContract`). Two rules of the
propagation pass over a domain that is empty from the start. A domain is tested only when a colour
has just been taken from it, and an empty domain takes no colours from its neighbours.

So the domains that are empty at the end are those that were empty before, and the one that is named
if one is (`Propagation.Ends.coloursAt_eq_nil_iff_or`). The contract is kept by every store in which
each domain has a colour, as in all that a search propagates from a domain that it has narrowed to
one of its colours, and it is broken exactly by those that have an empty domain and a closed
sub-store all the same (`propagate_keepsContract_iff`).
-/

namespace GraphSearch.Colouring

namespace Propagation

/-- What a propagation promises of its outcome. -/
structure Outcome.KeepsContract (o : Outcome) : Prop where
  /-- It ends well only if every domain has a colour left. -/
  nonempty : o.wipedOut = none → ∀ x < o.store.size, o.store.isEmptyAt x = .ok false
  /-- Otherwise it names a variable that has none. -/
  emptied : ∀ a, o.wipedOut = some a → o.store.isEmptyAt a.target = .ok true

variable {g : Graph} {d t : Store} {r : Option Arc} {x : Variable}

theorem Ends.size_eq (hg : g.Simple) (h : Ends g ⟨g.arcs, d⟩ r t) : t.size = d.size := by
  cases h with
  | drained run => exact ((sound_arcs g d).run hg run).size_eq
  | wiped run _ revised _ =>
    exact (Store.coloursAt_of_revise_eq_ok revised).1.trans ((sound_arcs g d).run hg run).size_eq

/-- A propagation only takes colours away. -/
theorem Ends.subset (hg : g.Simple) (h : Ends g ⟨g.arcs, d⟩ r t) (x : Variable) :
    t.coloursAt x ⊆ d.coloursAt x := by
  cases h with
  | drained run => exact ((sound_arcs g d).run hg run).subset x
  | wiped run _ revised _ =>
    intro c hc
    have hc := ((Store.mem_coloursAt_of_revise revised).1 hc).1
    exact ((sound_arcs g d).run hg run).subset x hc

/-- **Empty at the end are the domains that were empty before and the one that is named.** -/
theorem Ends.coloursAt_eq_nil_iff_or (hg : g.Simple) (h : Ends g ⟨g.arcs, d⟩ r t) :
    t.coloursAt x = [] ↔ d.coloursAt x = [] ∨ ∃ a, r = some a ∧ a.target = x := by
  by_cases hx : d.coloursAt x = []
  · have ht : t.coloursAt x = [] := List.eq_nil_of_subset_nil (hx ▸ h.subset hg x)
    simp [hx, ht]
  · cases r with
    | none =>
      have ht : t.coloursAt x ≠ [] := fun ht ↦ hx ((h.sound hg).eq_nil x ht)
      simp [hx, ht]
    | some a =>
      rw [(h.coloursAt_eq_nil_iff hg).2 x hx]
      simp [hx, eq_comm]

end Propagation

/-- **When a propagation keeps its contract.** It meets no fault on any store that covers a declared
graph. It leaves those domains empty that were empty before, and beside them only the one that it
names, which was not. So its contract is broken exactly if some domain was empty and there is a
closed sub-store all the same: then it ends well. -/
theorem propagate_keepsContract_iff (calls : List Declaration) (d : Store)
    (c : Propagation.Statistics) (hd : (Graph.declared calls).size ≤ d.size) :
    ∃ o, propagate (Graph.declared calls) d c = .ok o ∧
      (∀ x < d.size, o.store.isEmptyAt x = .ok true ↔
        d.isEmptyAt x = .ok true ∨ ∃ a, o.wipedOut = some a ∧ a.target = x) ∧
      (∀ a, o.wipedOut = some a → d.isEmptyAt a.target = .ok false) ∧
      (o.KeepsContract ↔ ¬((∃ x < d.size, d.isEmptyAt x = .ok true) ∧
        ∃ e : Store, e.IsClosedIn (Graph.declared calls) d)) := by
  have hg := Graph.simple_declared calls
  obtain ⟨o, ho, hends⟩ := exists_propagate_eq_ok hg hd c
  have hsize : o.store.size = d.size := hends.size_eq hg
  have hleft : ∀ x < d.size, o.store.isEmptyAt x = .ok true ↔
      d.isEmptyAt x = .ok true ∨ ∃ a, o.wipedOut = some a ∧ a.target = x := by
    intro x hx
    rw [Store.isEmptyAt_eq_ok_true_iff (hsize ▸ hx), Store.isEmptyAt_eq_ok_true_iff hx]
    exact hends.coloursAt_eq_nil_iff_or hg
  have hnamed : ∀ a, o.wipedOut = some a → d.coloursAt a.target ≠ [] := fun a ha ↦
    ((ha ▸ hends).coloursAt_eq_nil_iff hg).1
  refine ⟨o, ho, hleft, fun a ha ↦ ?_, fun hkeeps ↦ ?_,
    fun hnot ↦ ⟨fun hnone x hx ↦ ?_, fun a ha ↦ ?_⟩⟩
  · have htarget := Store.lt_size_of_coloursAt_ne_nil (hnamed a ha)
    exact (Store.isEmptyAt_eq_ok_false_iff htarget).2 (hnamed a ha)
  · rintro ⟨⟨x, hx, hempty⟩, hclosed⟩
    have hfull := hkeeps.nonempty ((hends.eq_none_iff hg).2 hclosed) x (hsize ▸ hx)
    cases hfull.symm.trans ((hleft x hx).2 (Or.inl hempty))
  · refine (Store.isEmptyAt_eq_ok_false_iff hx).2 fun hnil ↦ ?_
    rw [hsize] at hx
    rcases (hends.coloursAt_eq_nil_iff_or hg).1 hnil with hbefore | ⟨a, ha, -⟩
    · exact hnot ⟨⟨x, hx, (Store.isEmptyAt_eq_ok_true_iff hx).2 hbefore⟩,
        (hends.eq_none_iff hg).1 hnone⟩
    · cases hnone.symm.trans ha
  · have htarget := Store.lt_size_of_coloursAt_ne_nil (hnamed a ha)
    exact (hleft a.target htarget).2 (Or.inr ⟨a, ha, rfl⟩)

/-- On an edge whose ends have the domains `[1]` and `[1, 2]` the contract is kept: no domain was
empty. -/
theorem propagate_keepsContract_iff_edge :
    (Graph.declared [.edge 1 2]).size ≤ (⟨.ofList [⟨[1]⟩, ⟨[1, 2]⟩]⟩ : Store).size ∧
      ∃ o, propagate (Graph.declared [.edge 1 2]) ⟨.ofList [⟨[1]⟩, ⟨[1, 2]⟩]⟩ {} = .ok o ∧
        o.KeepsContract := by
  have hd : (Graph.declared [.edge 1 2]).size ≤ (⟨.ofList [⟨[1]⟩, ⟨[1, 2]⟩]⟩ : Store).size := by
    decide
  obtain ⟨o, ho, -, -, hkeeps⟩ := propagate_keepsContract_iff _ _ {} hd
  have hnone : ∀ x < (⟨.ofList [⟨[1]⟩, ⟨[1, 2]⟩]⟩ : Store).size,
      (⟨.ofList [⟨[1]⟩, ⟨[1, 2]⟩]⟩ : Store).isEmptyAt x ≠ .ok true := by
    decide
  exact ⟨hd, o, ho, hkeeps.2 fun ⟨⟨x, hx, hempty⟩, _⟩ ↦ hnone x hx hempty⟩

/-- **An empty domain is passed over.** If its only colour is taken from one end of an edge, the
propagation ends well and leaves that end without a colour. -/
theorem propagate_passes_over_empty :
    ∃ d o, (Store.full 2 1).remove 0 1 = .ok (true, d) ∧
      propagate (Graph.declared [.edge 1 2]) d {} = .ok o ∧
      o.wipedOut = none ∧ o.store.isEmptyAt 0 = .ok true ∧ ¬o.KeepsContract := by
  have harcs : (Graph.declared [.edge 1 2]).arcs = [⟨0, 1⟩, ⟨1, 0⟩] := by decide
  have hpropagate : propagate (Graph.declared [.edge 1 2]) ⟨.ofList [⟨[]⟩, ⟨[1]⟩]⟩ {} =
      .ok ⟨⟨.ofList [⟨[]⟩, ⟨[1]⟩]⟩, none, { calls := 1, arcsProcessed := 2 }⟩ := by
    rw [propagate, harcs, Propagation.drain_of_revise_zero (t := ⟨.ofList [⟨[]⟩, ⟨[1]⟩]⟩) rfl,
      Propagation.drain_of_revise_zero (t := ⟨.ofList [⟨[]⟩, ⟨[1]⟩]⟩) rfl, Propagation.drain]
    rfl
  refine ⟨_, _, rfl, hpropagate, rfl, rfl, fun hkeeps ↦ ?_⟩
  cases hkeeps.nonempty rfl 0 (by decide)

end GraphSearch.Colouring
