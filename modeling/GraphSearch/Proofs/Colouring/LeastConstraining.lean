import GraphSearch.Colouring.Selection
import GraphSearch.Proofs.Colouring.AscendingGraph
import GraphSearch.Proofs.Colouring.Pruning
import Mathlib.Data.Set.Card

/-!
# The least constraining colour first

A list is *ranked* by a score (`IsRanking`) if lower scores come first and entries with equal scores
stand as they stood. A stable sort ranks a list (`isRanking_mergeSort`), and there is no other
ranking (`IsRanking.unique`): its first entry has the lowest score, and of the entries that have
this score it is the one that the list has first.

The least constraining order ranks the colours of a domain by the number of their *rivals*, the
neighbours whose domain has the colour too. `leastConstraining_eq_ok` is one equation for it. Which
domains have to be there for that is `Context.Shows`: that of the variable itself, and those of its
neighbours unless it has no colour left. Nothing is asked of the domains, which may be empty or
pruned in any way, and nothing of the assignment.
-/

namespace GraphSearch

universe u v

/-! ### Ranking by a score -/

section Ranking

variable {α : Type u} {β : Type v} [LinearOrder β]

/-- The entries of `l`, lower scores first, those with equal scores as they stand in `l`. -/
structure IsRanking (score : α → β) (l ranked : List α) : Prop where
  /-- The entries are the same, each as often. -/
  perm : ranked.Perm l
  /-- The score never falls along the list. -/
  ascending : ranked.Pairwise fun a b ↦ score a ≤ score b
  /-- Of the entries with equal scores those come first that stood first. -/
  stable : ∀ k, (ranked.filter fun a ↦ decide (score a = k)) = l.filter fun a ↦ decide (score a = k)

variable {score : α → β} {l r r' : List α}

/-- **A stable sort ranks.** -/
theorem isRanking_mergeSort (score : α → β) (l : List α) :
    IsRanking score l (l.mergeSort fun a b ↦ decide (score a ≤ score b)) := by
  have htrans : ∀ a b c, decide (score a ≤ score b) = true → decide (score b ≤ score c) = true →
      decide (score a ≤ score c) = true := by
    simp only [decide_eq_true_eq]
    exact fun a b c hab hbc ↦ hab.trans hbc
  have htotal : ∀ a b, (decide (score a ≤ score b) || decide (score b ≤ score a)) = true := by
    simp only [Bool.or_eq_true, decide_eq_true_eq]
    exact fun a b ↦ le_total _ _
  refine ⟨List.mergeSort_perm _ _, ?_, fun k ↦ ?_⟩
  · exact (List.pairwise_mergeSort htrans htotal l).imp of_decide_eq_true
  · -- Entries with one score are sorted as they stand, so they are a part of the sorted list.
    have hequal : (l.filter fun a ↦ decide (score a = k)).Pairwise fun a b ↦
        decide (score a ≤ score b) = true := by
      refine List.pairwise_of_forall_mem_list fun a ha b hb ↦ decide_eq_true ?_
      have ha : score a = k := of_decide_eq_true (List.mem_filter.1 ha).2
      have hb : score b = k := of_decide_eq_true (List.mem_filter.1 hb).2
      exact (ha.trans hb.symm).le
    have hsub := (List.sublist_mergeSort htrans htotal hequal List.filter_sublist).filter
      fun a ↦ decide (score a = k)
    simp only [List.filter_filter, Bool.and_self] at hsub
    refine (hsub.eq_of_length ?_).symm
    exact ((List.mergeSort_perm l _).filter _).length_eq.symm

/-- Where the score never falls, the first entry has the lowest. -/
theorem score_le_of_mem_cons {a b : α} (h : (a :: l).Pairwise fun a b ↦ score a ≤ score b)
    (hb : b ∈ a :: l) : score a ≤ score b := by
  rcases List.mem_cons.1 hb with rfl | hb
  · exact le_rfl
  · exact List.rel_of_pairwise_cons h hb

/-- The only ranking of a list whose scores do not fall is the list itself. -/
theorem IsRanking.eq_of_ascending (hl : l.Pairwise fun a b ↦ score a ≤ score b)
    (h : IsRanking score l r) : r = l := by
  induction l generalizing r with
  | nil => exact h.perm.eq_nil
  | cons a l ih =>
    cases r with
    | nil => cases h.perm.symm.eq_nil
    | cons b r =>
      have hscore : score b = score a :=
        le_antisymm (score_le_of_mem_cons h.ascending (h.perm.mem_iff.2 List.mem_cons_self))
          (score_le_of_mem_cons hl (h.perm.mem_iff.1 List.mem_cons_self))
      have hfirst := h.stable (score a)
      rw [List.filter_cons, List.filter_cons, if_pos (decide_eq_true hscore),
        if_pos (decide_eq_true rfl)] at hfirst
      obtain rfl := (List.cons.inj hfirst).1
      refine congrArg (b :: ·) (ih hl.of_cons ⟨h.perm.cons_inv, h.ascending.of_cons, fun k ↦ ?_⟩)
      have hstable := h.stable k
      rw [List.filter_cons, List.filter_cons] at hstable
      split at hstable
      · exact (List.cons.inj hstable).2
      · exact hstable

/-- **A list has one ranking.** -/
theorem IsRanking.unique (h : IsRanking score l r) (h' : IsRanking score l r') : r = r' :=
  eq_of_ascending h'.ascending
    ⟨h.perm.trans h'.perm.symm, h.ascending, fun k ↦ (h.stable k).trans (h'.stable k).symm⟩

end Ranking

namespace Colouring

variable {σ : Type}

namespace Context

/-! ### Rivals -/

/-- The neighbours of `x` that have the colour `c` in their domain too. -/
def rivals (ctx : Context) (x : Variable) (c : Colour) : Set Variable :=
  {y | ctx.graph.adjacent x y = .ok true ∧ ctx.store.contains y c = .ok true}

/-- The number of entries of the neighbourhood of `x` that have the colour `c` in their domain. -/
def rivalCount (ctx : Context) (x : Variable) (c : Colour) : Nat :=
  (ctx.graph.row x).countP fun y ↦ (ctx.store.coloursAt y).contains c

/-- The domains that ordering the colours of `x` looks at are there. -/
structure Shows (ctx : Context) (x : Variable) : Prop where
  /-- The variable has a domain. -/
  lt_size : x < ctx.store.size
  /-- If a colour is left for it, it is a variable of the graph. -/
  lt_size_graph : ctx.store.coloursAt x ≠ [] → x < ctx.graph.neighbours.size
  /-- If a colour is left for it, its neighbours have domains. -/
  neighbours : ctx.store.coloursAt x ≠ [] → ∀ y ∈ ctx.graph.row x, y < ctx.store.size

/-- The colours left for `x`, those with fewer rivals first, and those with equally many rivals as
they stand in the domain. -/
def RanksColours (ctx : Context) (x : Variable) (cs : List Colour) : Prop :=
  IsRanking (fun c ↦ (ctx.rivals x c).encard) (ctx.store.coloursAt x) cs

variable {ctx : Context} {x y : Variable} {c : Colour}

/-- Where every variable has a domain, all that is looked at is there. -/
theorem shows_of_lt_size (hg : ctx.graph.Simple) (hs : ctx.graph.size ≤ ctx.store.size)
    (hx : x < ctx.graph.size) : ctx.Shows x where
  lt_size := hx.trans_le hs
  lt_size_graph _ := hg.size_neighbours ▸ hx
  neighbours _ _ hy := (hg.lt_size_right hy).trans_le hs

theorem contains_eq_ok (h : y < ctx.store.size) (c : Colour) :
    ctx.store.contains y c = .ok ((ctx.store.coloursAt y).contains c) := by
  rw [Store.contains, Store.domainOf_eq_ok h]
  rfl

theorem contains_eq_ok_true_iff :
    ctx.store.contains y c = .ok true ↔ c ∈ ctx.store.coloursAt y := by
  constructor
  · intro h
    obtain ⟨d, hd, hc⟩ := map_eq_ok_iff.1 h
    obtain ⟨-, rfl⟩ := Store.domainOf_eq_ok_iff.1 hd
    exact List.contains_iff_mem.1 hc
  · intro hc
    have hy : y < ctx.store.size := by
      by_contra hy
      rw [Store.coloursAt_of_size_le (not_lt.1 hy)] at hc
      cases hc
    rw [contains_eq_ok hy, List.contains_iff_mem.2 hc]

/-- **The rivals are as many as are counted** where the neighbourhoods ascend. -/
theorem encard_rivals (h : ∀ x, (ctx.graph.row x).Pairwise (· < ·)) (x : Variable) (c : Colour) :
    (ctx.rivals x c).encard = ctx.rivalCount x c := by
  have hrow : (ctx.graph.row x).Nodup := (h x).imp fun hlt ↦ hlt.ne
  have hrivals : ctx.rivals x c =
      ((ctx.graph.row x).filter fun y ↦ (ctx.store.coloursAt y).contains c).toFinset := by
    ext y
    simp [rivals, Graph.adjacent_eq_ok_true_iff h, contains_eq_ok_true_iff]
  rw [hrivals, Set.encard_coe_eq_coe_finsetCard, List.toFinset_card_of_nodup (hrow.filter _),
    rivalCount, List.countP_eq_length_filter]

/-- Sorting by the count ranks the colours. -/
theorem ranksColours_mergeSort (h : ∀ x, (ctx.graph.row x).Pairwise (· < ·)) (x : Variable) :
    ctx.RanksColours x ((ctx.store.coloursAt x).mergeSort fun b c ↦
      decide (ctx.rivalCount x b ≤ ctx.rivalCount x c)) := by
  have hranking := isRanking_mergeSort (fun c ↦ (ctx.rivals x c).encard) (ctx.store.coloursAt x)
  simpa only [RanksColours, encard_rivals h, Nat.cast_le] using hranking

/-- Counting goes through the whole neighbourhood. -/
theorem conflicts_eq_ok (hx : x < ctx.graph.neighbours.size)
    (hrow : ∀ y ∈ ctx.graph.row x, y < ctx.store.size) (c : Colour) :
    ctx.conflicts x c = .ok (ctx.rivalCount x c) := by
  have hcontains : ∀ y ∈ ctx.graph.row x, ∀ n : Nat,
      (do return if ← ctx.store.contains y c then n + 1 else n : Except Fault Nat) =
        .ok (if (ctx.store.coloursAt y).contains c then n + 1 else n) := by
    intro y hy n
    rw [contains_eq_ok (hrow y hy)]
    rfl
  rw [conflicts, Graph.neighboursOf_eq_ok_iff.2 ⟨hx, rfl⟩, ok_bind, foldlM_eq_ok hcontains 0,
    ← List.foldl_filter, List.foldl_add_const, zero_add, one_mul, rivalCount,
    List.countP_eq_length_filter]

/-- Counting reads the neighbourhood and the domains of all neighbours. -/
theorem of_conflicts_eq_ok {n : Nat} (h : ctx.conflicts x c = .ok n) :
    x < ctx.graph.neighbours.size ∧ ∀ y ∈ ctx.graph.row x, y < ctx.store.size := by
  obtain ⟨row, hrow, h⟩ := bind_eq_ok_iff.1 h
  obtain ⟨hx, rfl⟩ := Graph.neighboursOf_eq_ok_iff.1 hrow
  refine ⟨hx, fun y hy ↦ ?_⟩
  obtain ⟨k, k', hstep⟩ := exists_eq_ok_of_foldlM_eq_ok h y hy
  obtain ⟨b, hb, -⟩ := bind_eq_ok_iff.1 hstep
  obtain ⟨d, hd, -⟩ := map_eq_ok_iff.1 hb
  exact (Store.domainOf_eq_ok_iff.1 hd).1

end Context

/-! ### The order of the colours -/

namespace ValueSelector

variable {ctx : Context} {x : Variable}

/-- **The least constraining order** is the domain, sorted by the number of rivals. -/
theorem leastConstraining_eq_ok (h : ctx.Shows x) (m : σ) :
    leastConstraining ctx x m = .ok ((ctx.store.coloursAt x).mergeSort fun b c ↦
      decide (ctx.rivalCount x b ≤ ctx.rivalCount x c), m) := by
  have hscored : (ctx.store.coloursAt x).mapM (fun c ↦ (fun n ↦ (c, n)) <$> ctx.conflicts x c) =
      .ok ((ctx.store.coloursAt x).map fun c ↦ (c, ctx.rivalCount x c)) := by
    refine mapM_eq_ok fun c hc ↦ ?_
    have hne := List.ne_nil_of_mem hc
    rw [Context.conflicts_eq_ok (h.lt_size_graph hne) (h.neighbours hne)]
    rfl
  have hsorted := List.map_mergeSort (r := fun b c ↦ decide (ctx.rivalCount x b ≤
    ctx.rivalCount x c)) (s := fun p q : Colour × Nat ↦ decide (p.2 ≤ q.2))
    (f := fun c ↦ (c, ctx.rivalCount x c)) (l := ctx.store.coloursAt x) fun _ _ _ _ ↦ rfl
  rw [leastConstraining, Store.domainOf_eq_ok h.lt_size, ok_bind]
  dsimp only
  rw [hscored, ok_bind, ← hsorted, List.map_map]
  exact congrArg (fun l ↦ Except.ok (l, m)) (List.map_id' _)

/-- The colours are ordered exactly if the domains that this looks at are there. -/
theorem exists_leastConstraining_eq_ok_iff (m : σ) :
    (∃ r, leastConstraining ctx x m = .ok r) ↔ ctx.Shows x := by
  refine ⟨?_, fun h ↦ ⟨_, leastConstraining_eq_ok h m⟩⟩
  rintro ⟨r, hr⟩
  obtain ⟨d, hd, hr⟩ := bind_eq_ok_iff.1 hr
  obtain ⟨scored, hscored, -⟩ := bind_eq_ok_iff.1 hr
  obtain ⟨hx, rfl⟩ := Store.domainOf_eq_ok_iff.1 hd
  have hread : ctx.store.coloursAt x ≠ [] →
      x < ctx.graph.neighbours.size ∧ ∀ y ∈ ctx.graph.row x, y < ctx.store.size := by
    intro hne
    -- The first colour has been counted, and counting reads all of them.
    obtain ⟨c, hc⟩ := List.exists_mem_of_ne_nil _ hne
    obtain ⟨p, hp⟩ := exists_eq_ok_of_mapM_eq_ok hscored c hc
    obtain ⟨n, hn, -⟩ := map_eq_ok_iff.1 hp
    exact Context.of_conflicts_eq_ok hn
  exact ⟨hx, fun hne ↦ (hread hne).1, fun hne ↦ (hread hne).2⟩

/-- **The least constraining order ranks the colours by the number of their rivals.** It is given
exactly if the domains are there that it looks at, so for every variable of a context in which all
have one, and nothing is remembered: colours that fewer neighbours have in their domains come first,
and those with equally many such neighbours stay as they stand in the domain. There is no other
such order. -/
theorem leastConstraining_ranks (calls : List Declaration) (s : Store) (a : Assignment)
    (x : Variable) (m : σ) :
    ((Graph.declared calls).size ≤ s.size → x < (Graph.declared calls).size →
        Context.Shows ⟨.declared calls, s, a⟩ x) ∧
      ((∃ r, leastConstraining ⟨.declared calls, s, a⟩ x m = .ok r) ↔
        Context.Shows ⟨.declared calls, s, a⟩ x) ∧
      (∀ cs m', leastConstraining ⟨.declared calls, s, a⟩ x m = .ok (cs, m') →
        m' = m ∧ Context.RanksColours ⟨.declared calls, s, a⟩ x cs) ∧
      (∀ cs cs', Context.RanksColours ⟨.declared calls, s, a⟩ x cs →
        Context.RanksColours ⟨.declared calls, s, a⟩ x cs' → cs = cs') := by
  refine ⟨fun hs hx ↦ Context.shows_of_lt_size (Graph.simple_declared calls) hs hx,
    exists_leastConstraining_eq_ok_iff m, fun cs m' h ↦ ?_,
    fun cs cs' h h' ↦ IsRanking.unique h h'⟩
  have hshows := (exists_leastConstraining_eq_ok_iff m).1 ⟨_, h⟩
  obtain ⟨rfl, rfl⟩ := Prod.mk.inj (Except.ok.inj ((leastConstraining_eq_ok hshows m).symm.trans h))
  have hascending : ∀ y, ((Graph.declared calls).row y).Pairwise (· < ·) :=
    (Graph.represents_declared calls).row_ascending
  exact ⟨rfl, Context.ranksColours_mergeSort hascending x⟩

end ValueSelector

end Colouring

end GraphSearch
