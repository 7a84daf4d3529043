import GraphSearch.Proofs.Colouring.AscendingGraph
import GraphSearch.Proofs.Colouring.ExplainedPruning
import GraphSearch.Proofs.Colouring.Handshake
import Mathlib.Algebra.BigOperators.Ring.Finset
import Mathlib.Tactic.Linarith
import Mathlib.Tactic.Ring

/-!
# How much work a propagation is

Where no domain has a repetition, a revision that takes anything away takes a single colour
(`Store.of_revise_eq_ok_succ`). So the counts of a propagation can be read off the stores before and
after it, although the list of arcs grows while it is worked off.

What makes the count of arcs exact is a quantity that no step changes: the arcs taken so far, the
arcs on the list, and the colours that are left, where a colour of a variable of degree `n` counts
`n - 1` times (`Store.weight`). A revision that takes a colour from such a variable puts `n - 1`
arcs on the list, since the one from its support stays away (`Graph.length_woken`). The quantity
falls only in the end, if a domain is emptied and the rest of the list is left as it is.
-/

namespace GraphSearch

open Finset (range)

theorem sumOf_range (f : ℕ → ℕ) (n : ℕ) : sumOf f (List.range n) = ∑ x ∈ range n, f x := by
  have hsum : ∀ l : List ℕ, sumOf f l = (l.map f).sum := by
    intro l
    induction l with
    | nil => rfl
    | cons a l ih => rw [sumOf, ih, List.map_cons, List.sum_cons]
  rw [hsum, Finset.sum_eq_multiset_sum]
  rfl

namespace Colouring

/-! ### Colours that count differently for each variable -/

namespace Store

/-- The number of colours left for the variables below `n`, where each colour of `x` counts `f x`
times. -/
def weight (s : Store) (n : ℕ) (f : Variable → ℤ) : ℤ :=
  ∑ x ∈ range n, ((s.coloursAt x).length : ℤ) * f x

variable {s t d : Store} {a : Arc} {n : ℕ}

theorem totalSize_eq_weight (s : Store) : (s.totalSize : ℤ) = s.weight s.size fun _ ↦ 1 := by
  have hsum : s.totalSize = ∑ x ∈ range s.size, (s.coloursAt x).length := by
    rw [totalSize, Table.toList_eq_map_getD s.domains {}, sumOf_map, sumOf_range]
    rfl
  rw [hsum, weight, Nat.cast_sum]
  simp

theorem weight_sub_weight (s t : Store) (n : ℕ) (f : Variable → ℤ) :
    s.weight n f - t.weight n f =
      ∑ x ∈ range n, (((s.coloursAt x).length : ℤ) - (t.coloursAt x).length) * f x := by
  rw [weight, weight, ← Finset.sum_sub_distrib]
  exact Finset.sum_congr rfl fun x _ ↦ (sub_mul _ _ _).symm

/-- Where no domain has a repetition, a revision that takes anything away takes one colour. -/
theorem of_revise_eq_ok_succ (hs : ∀ x, (s.coloursAt x).Nodup)
    (h : s.revise a = .ok (n + 1, t)) :
    n = 0 ∧ (t.coloursAt a.target).length + 1 = (s.coloursAt a.target).length := by
  obtain ⟨-, hn, ht⟩ := coloursAt_of_revise_eq_ok h
  obtain ⟨c, hc, honly⟩ := exists_only_of_revise h
  -- The colours that go are the only one of the support, and the target has that one once.
  have hgone : ((s.coloursAt a.target).filter (s.only a.support)).Perm [c] := by
    refine (List.perm_ext_iff_of_nodup ((hs _).filter _) (List.nodup_singleton c)).2 fun b ↦ ?_
    rw [List.mem_filter, List.mem_singleton]
    constructor
    · rintro ⟨-, hb⟩
      exact (only_iff.1 honly b).1 (mem_coloursAt_of_only hb)
    · rintro rfl
      exact ⟨hc, honly⟩
  have hone : n + 1 = 1 := hn.trans hgone.length_eq
  have hsplit := List.length_eq_length_filter_add (l := s.coloursAt a.target) (s.only a.support)
  rw [ht, if_pos rfl]
  omega

/-- Revising an arc keeps the domains free of repetitions. -/
theorem nodup_of_revise (hs : ∀ x, (s.coloursAt x).Nodup) (h : s.revise a = .ok (n, t))
    (x : Variable) : (t.coloursAt x).Nodup := by
  rw [(coloursAt_of_revise_eq_ok h).2.2 x]
  split
  · exact (hs x).filter _
  · exact hs x

/-- A revision that takes anything away takes one colour of its target from the weight. -/
theorem weight_of_revise (hs : ∀ x, (s.coloursAt x).Nodup) (h : s.revise a = .ok (n + 1, t))
    {m : ℕ} (htarget : a.target < m) (f : Variable → ℤ) :
    t.weight m f + f a.target = s.weight m f := by
  have hlength := (of_revise_eq_ok_succ hs h).2
  have hterm : ∀ x, ((s.coloursAt x).length : ℤ) * f x =
      (t.coloursAt x).length * f x + if x = a.target then f a.target else 0 := by
    intro x
    split
    · rename_i hx
      rw [hx, ← hlength]
      push_cast
      ring
    · rename_i hx
      rw [coloursAt_of_revise_of_ne h hx, add_zero]
  rw [weight, weight, Finset.sum_congr rfl fun x _ ↦ hterm x, Finset.sum_add_distrib,
    Finset.sum_ite_eq', if_pos (Finset.mem_range.2 htarget)]

/-- The total number of colours falls by one. -/
theorem totalSize_of_revise (hs : ∀ x, (s.coloursAt x).Nodup) (h : s.revise a = .ok (n + 1, t)) :
    (t.totalSize : ℤ) + 1 = s.totalSize := by
  rw [totalSize_eq_weight, totalSize_eq_weight, (coloursAt_of_revise_eq_ok h).1]
  exact weight_of_revise hs h (lt_size_of_revise h).1 fun _ ↦ 1

end Store

/-! ### The arcs that come back -/

theorem Graph.nodup_row_declared (calls : List Declaration) (x : Variable) :
    ((declared calls).row x).Nodup :=
  ((represents_declared calls).row_ascending x).imp fun hlt ↦ hlt.ne

/-- The arcs to a target that come back are one fewer than its neighbours. -/
theorem Graph.length_woken {g : Graph} {a : Arc} (hrow : (g.row a.target).Nodup)
    (ha : a.support ∈ g.row a.target) : (g.woken a).length + 1 = (g.row a.target).length := by
  have hpos := List.length_pos_of_mem ha
  rw [Graph.woken, List.length_map, ← hrow.erase_eq_filter, List.length_erase_of_mem ha]
  omega

namespace Propagation

variable {g : Graph} {pending rest : List Arc} {s t : Store} {c : Statistics} {o : Outcome}
  {a : Arc} {n : ℕ}

/-- **There is no endless propagation**, whichever arc of the list is taken next. -/
theorem wellFounded_step (g : Graph) : WellFounded fun w v ↦ Step g v w := by
  refine Subrelation.wf ?_ (InvImage.wf (fun v : Sweep ↦ (v.store.totalSize, v.pending.length))
    (Prod.lex Nat.lt_wfRel Nat.lt_wfRel).wf)
  intro w v hstep
  cases hstep with
  | idle taken revised =>
    refine Prod.Lex.right _ ?_
    rw [taken.length_eq]
    exact Nat.lt_succ_self _
  | pruned taken revised left => exact Prod.Lex.left _ _ (Store.totalSize_lt_of_revise revised)

/-- What is left to be counted at a variable when it loses a colour: the arcs that come back. -/
def backlog (g : Graph) (x : Variable) : ℤ := (g.row x).length - 1

/-- How the counts of a propagation follow from what it found and what it left: `pending` was on the
list, `s` was the store and `c` had been counted before. -/
structure Balanced (g : Graph) (pending : List Arc) (s : Store) (c : Statistics) (o : Outcome) :
    Prop where
  /-- Each revision that took anything away took one colour. -/
  revisions : (o.statistics.revisions : ℤ) + o.store.totalSize = c.revisions + s.totalSize
  /-- Each colour that is gone is counted. -/
  valuesPruned : (o.statistics.valuesPruned : ℤ) + o.store.totalSize = c.valuesPruned + s.totalSize
  /-- A domain that was emptied is counted. -/
  wipeouts : o.statistics.wipeouts = c.wipeouts + if o.wipedOut = none then 0 else 1
  /-- No arc is taken that was not on the list and did not come back. -/
  arcs_le : (o.statistics.arcsProcessed : ℤ) + o.store.weight g.size (backlog g) ≤
    c.arcsProcessed + pending.length + s.weight g.size (backlog g)
  /-- If no domain was emptied, all of them are. -/
  arcs_eq : o.wipedOut = none →
    (o.statistics.arcsProcessed : ℤ) + o.store.weight g.size (backlog g) =
      c.arcsProcessed + pending.length + s.weight g.size (backlog g)

namespace Balanced

/-- Nothing is counted when the list is empty. -/
theorem nil (g : Graph) (s : Store) (c : Statistics) : Balanced g [] s c ⟨s, none, c⟩ := by
  refine ⟨rfl, rfl, rfl, ?_, fun _ ↦ ?_⟩ <;> simp

/-- An arc whose revision changes nothing is only taken. -/
theorem idle (h : Balanced g rest s (c.revised 0) o) : Balanced g (a :: rest) s c o := by
  obtain ⟨hrevisions, hpruned, hwipeouts, hle, heq⟩ := h
  simp only [Statistics.revised, if_true, Nat.add_zero, Nat.cast_add, Nat.cast_one]
    at hrevisions hpruned hwipeouts hle heq
  refine ⟨hrevisions, hpruned, hwipeouts, ?_, fun hnone ↦ ?_⟩
  · rw [List.length_cons]
    push_cast
    linarith
  · have := heq hnone
    rw [List.length_cons]
    push_cast
    linarith

variable (hg : g.Simple) (hs : ∀ x, (s.coloursAt x).Nodup) (harc : a.support ∈ g.row a.target)
  (hrevise : s.revise a = .ok (n + 1, t))

include hg hs harc hrevise

/-- An arc whose revision takes a colour away puts as many arcs on the list as the weight falls. -/
theorem pruned (hrow : (g.row a.target).Nodup)
    (h : Balanced g (rest ++ g.woken a) t (c.revised (n + 1)) o) :
    Balanced g (a :: rest) s c o := by
  obtain ⟨rfl, -⟩ := Store.of_revise_eq_ok_succ hs hrevise
  have htotal := Store.totalSize_of_revise hs hrevise
  have hweight := Store.weight_of_revise hs hrevise (hg.lt_size_left harc) (backlog g)
  have hwoken : ((g.woken a).length : ℤ) = backlog g a.target := by
    rw [backlog, ← Graph.length_woken hrow harc]
    push_cast
    ring
  obtain ⟨hrevisions, hpruned, hwipeouts, hle, heq⟩ := h
  simp only [Statistics.revised, Nat.zero_add, one_ne_zero, if_false, List.length_append,
    Nat.cast_add, Nat.cast_one, hwoken] at hrevisions hpruned hwipeouts hle heq
  refine ⟨by linarith, by linarith, hwipeouts, ?_, fun hnone ↦ ?_⟩
  · rw [List.length_cons]
    push_cast
    linarith
  · have := heq hnone
    rw [List.length_cons]
    push_cast
    linarith

/-- If the revision empties the domain, the rest of the list is not taken. -/
theorem wiped : Balanced g (a :: rest) s c
    ⟨t, some a, { c.revised (n + 1) with wipeouts := (c.revised (n + 1)).wipeouts + 1 }⟩ := by
  obtain ⟨rfl, -⟩ := Store.of_revise_eq_ok_succ hs hrevise
  have htotal := Store.totalSize_of_revise hs hrevise
  have hweight := Store.weight_of_revise hs hrevise (hg.lt_size_left harc) (backlog g)
  have hbacklog : 0 ≤ backlog g a.target := by
    have := List.length_pos_of_mem harc
    rw [backlog]
    omega
  refine ⟨?_, ?_, rfl, ?_, nofun⟩
  · simp only [Statistics.revised, Nat.zero_add, one_ne_zero, if_false, Nat.cast_add, Nat.cast_one]
    linarith
  · simp only [Statistics.revised, Nat.zero_add, Nat.cast_add, Nat.cast_one]
    linarith
  · simp only [Statistics.revised, List.length_cons, Nat.cast_add, Nat.cast_one]
    have := Int.natCast_nonneg rest.length
    linarith

end Balanced

/-- **Working the list off keeps the balance**, in whatever order domains come down to one colour.
-/
theorem balanced_of_drain (hg : g.Simple) (hrow : ∀ x, (g.row x).Nodup)
    (hs : ∀ x, (s.coloursAt x).Nodup) (hpending : ∀ a ∈ pending, a.support ∈ g.row a.target)
    (h : drain g pending s c = .ok o) : Balanced g pending s c o := by
  induction pending, s, c using drain.induct with
  | case1 s c =>
    rw [drain] at h
    obtain rfl := Except.ok.inj h
    exact .nil g s c
  | case2 s c a rest e he => cases (drain_of_revise_error he rest c).symm.trans h
  | case3 s c a rest t hrevise ih =>
    rw [drain_of_revise_zero hrevise] at h
    exact .idle (ih hs (fun b hb ↦ hpending b (List.mem_cons_of_mem _ hb)) h)
  | case4 s c a rest n t hrevise c' ih =>
    have harc := hpending a List.mem_cons_self
    rw [drain_of_revise_pos hrevise] at h
    obtain ⟨b, hempty, h⟩ := bind_eq_ok_iff.1 h
    cases b with
    | true =>
      rw [if_pos rfl] at h
      obtain rfl := Except.ok.inj h
      exact .wiped hg hs harc hrevise
    | false =>
      rw [if_neg Bool.false_ne_true, hg.neighboursOf_eq_ok (hg.lt_size_left harc), ok_bind] at h
      exact .pruned hg hs harc hrevise (hrow _) (ih (g.row a.target)
        (Store.nodup_of_revise hs hrevise) (Graph.forall_mem_append_woken hg hpending) h)

end Propagation

/-- The arcs that a propagation from `d` to `t` takes: two for each edge, and one for each neighbour
but one of a variable for each colour that the variable loses. -/
def Propagation.arcsTaken (g : Graph) (d t : Store) : ℤ :=
  2 * g.edgeCount + ∑ x ∈ range g.size,
    (((d.coloursAt x).length : ℤ) - (t.coloursAt x).length) * ((g.row x).length - 1)

/-- **How much work a propagation is.** Let no domain of the store have a repetition. There is no
endless propagation, and on a store that covers the graph it comes to a result. Each result counts
one revision and one colour for each colour that is gone, and an emptied domain exactly if there is
one. If there is none, the arcs that it took are those of `arcsTaken`; otherwise they are at most as
many. -/
theorem propagate_counts (calls : List Declaration) (d : Store)
    (hd : ∀ x, (d.coloursAt x).Nodup) (c : Propagation.Statistics) :
    (WellFounded fun w v ↦ Propagation.Step (Graph.declared calls) v w) ∧
      ((Graph.declared calls).size ≤ d.size → ∃ o, propagate (Graph.declared calls) d c = .ok o ∧
        Propagation.Ends (Graph.declared calls) ⟨(Graph.declared calls).arcs, d⟩
          o.wipedOut o.store) ∧
      ∀ o, propagate (Graph.declared calls) d c = .ok o →
        (o.statistics.revisions : ℤ) - c.revisions = d.totalSize - o.store.totalSize ∧
        (o.statistics.valuesPruned : ℤ) - c.valuesPruned = d.totalSize - o.store.totalSize ∧
        o.statistics.wipeouts = c.wipeouts + (if o.wipedOut = none then 0 else 1) ∧
        (o.wipedOut = none → (o.statistics.arcsProcessed : ℤ) - c.arcsProcessed =
          Propagation.arcsTaken (Graph.declared calls) d o.store) ∧
        (o.wipedOut ≠ none → (o.statistics.arcsProcessed : ℤ) - c.arcsProcessed ≤
          Propagation.arcsTaken (Graph.declared calls) d o.store) := by
  have hg := Graph.simple_declared calls
  refine ⟨Propagation.wellFounded_step _, fun hsize ↦ exists_propagate_eq_ok hg hsize c, ?_⟩
  intro o ho
  obtain ⟨hrevisions, hpruned, hwipeouts, hle, heq⟩ :=
    Propagation.balanced_of_drain hg (Graph.nodup_row_declared calls) hd
      (fun a ha ↦ Graph.mem_arcs.1 ha) ho
  have hweight := d.weight_sub_weight o.store (Graph.declared calls).size
    (Propagation.backlog (Graph.declared calls))
  unfold Propagation.arcsTaken
  unfold Propagation.backlog at hweight hle heq
  rw [← hweight]
  rw [Graph.length_arcs_declared] at hle heq
  push_cast at hle heq
  refine ⟨by linarith, by linarith, hwipeouts, fun hnone ↦ ?_, fun _ ↦ by linarith⟩
  have := heq hnone
  linarith

/-- On a star of three rays, where two rays have a single colour, the domain of the centre comes
down to one colour. So the arc from the third ray comes back twice, and ten arcs are taken. -/
theorem propagate_counts_star :
    (∀ x, ((⟨.ofList [⟨[1, 2, 3]⟩, ⟨[1]⟩, ⟨[2]⟩, ⟨[3, 1, 2]⟩]⟩ : Store).coloursAt x).Nodup) ∧
      ∃ o : Propagation.Outcome, propagate (Graph.declared [.edge 1 2, .edge 1 3, .edge 1 4])
          ⟨.ofList [⟨[1, 2, 3]⟩, ⟨[1]⟩, ⟨[2]⟩, ⟨[3, 1, 2]⟩]⟩ {} = .ok o ∧ o.wipedOut = none ∧
        (o.statistics.revisions : ℤ) - (0 : ℕ) = (8 : ℕ) - o.store.totalSize ∧
        (o.statistics.arcsProcessed : ℤ) - (0 : ℕ) =
          Propagation.arcsTaken (Graph.declared [.edge 1 2, .edge 1 3, .edge 1 4])
            ⟨.ofList [⟨[1, 2, 3]⟩, ⟨[1]⟩, ⟨[2]⟩, ⟨[3, 1, 2]⟩]⟩ o.store ∧
        o.statistics.revisions = 3 ∧ o.statistics.arcsProcessed = 10 := by
  have hnodup : ∀ x,
      ((⟨.ofList [⟨[1, 2, 3]⟩, ⟨[1]⟩, ⟨[2]⟩, ⟨[3, 1, 2]⟩]⟩ : Store).coloursAt x).Nodup := by
    rintro (_ | _ | _ | _ | x) <;> simp [Store.coloursAt, Table.getD_ofList]
  have hrun : propagate (Graph.declared [.edge 1 2, .edge 1 3, .edge 1 4])
      ⟨.ofList [⟨[1, 2, 3]⟩, ⟨[1]⟩, ⟨[2]⟩, ⟨[3, 1, 2]⟩]⟩ {} =
        .ok ⟨⟨.ofList [⟨[3]⟩, ⟨[1]⟩, ⟨[2]⟩, ⟨[1, 2]⟩]⟩, none, ⟨1, 0, 10, 3, 3⟩⟩ := by cbv
  obtain ⟨-, -, hcounts⟩ := propagate_counts _ _ hnodup {}
  obtain ⟨hrevisions, -, -, harcs, -⟩ := hcounts _ hrun
  exact ⟨hnodup, _, hrun, rfl, hrevisions, harcs rfl, rfl, rfl⟩

end Colouring

end GraphSearch
