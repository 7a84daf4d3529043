import GraphSearch.Proofs.Colouring.Handshake
import GraphSearch.Proofs.Colouring.Pruning
import Mathlib.Logic.Relation

/-!
# The greatest closed sub-store

A sub-store of a store `d` is *closed* in `d` if it empties no domain that `d` leaves non-empty and
no variable keeps a colour that is the only one of a neighbour (`Store.IsClosedIn`). Propagation
computes the greatest of them, or finds that there is none.

The order in which arcs are taken from the list has no part in that, so it is left open here:
`Propagation.Step` takes any arc of the list, and `Propagation.Ends` is the end of any such run.
What one step keeps is `Sweep.Sound`, and the three facts about its parts carry everything:

* every arc is either on the list or settled. Revising the arc from `x` to `y` unsettles only arcs
  to `x`, and the one from `y` need not come back: `x` has just lost the only colour of `y`
  (`Sweep.Sound.revise`);
* a closed sub-store of `d` lies in the store at every step, since a colour goes only if it is the
  only one of a neighbour, there and so in the closed sub-store (`Store.subset_of_revise`);
* what is left of a domain is a filter of what it was, so the colours that are left determine it.
-/

namespace GraphSearch.Colouring

open Relation

namespace Store

/-- A closed sub-store: each domain is a part of that of `d`, empty only where that of `d` is, and
the only colour of a variable is none of its neighbours'. -/
structure IsClosedIn (e : Store) (g : Graph) (d : Store) : Prop where
  /-- The variables are the same. -/
  size_eq : e.size = d.size
  /-- Every domain is a part of the given one. -/
  subset : ∀ x, e.coloursAt x ⊆ d.coloursAt x
  /-- No domain is empty that was not given so. -/
  eq_nil : ∀ x, e.coloursAt x = [] → d.coloursAt x = []
  /-- The only colour of a variable is not left for its neighbours. -/
  closed : ∀ x y c, y ∈ g.row x → (∀ c', c' ∈ e.coloursAt y ↔ c' = c) → c ∉ e.coloursAt x

/-- A closed sub-store that contains every other one. -/
def IsGreatestClosedIn (t : Store) (g : Graph) (d : Store) : Prop :=
  t.IsClosedIn g d ∧ ∀ e : Store, e.IsClosedIn g d → ∀ x, e.coloursAt x ⊆ t.coloursAt x

/-- The arc from `x` to `y` is settled: revising it would change nothing. -/
def Settled (s : Store) (x y : Variable) : Prop :=
  ∀ c, s.only y c = true → c ∉ s.coloursAt x

variable {g : Graph} {d e s t : Store} {a : Arc} {n : Nat}

theorem mem_coloursAt_of_revise (h : s.revise a = .ok (n, t)) {z : Variable} {c : Colour} :
    c ∈ t.coloursAt z ↔ c ∈ s.coloursAt z ∧ (z = a.target → s.only a.support c = false) := by
  rw [(coloursAt_of_revise_eq_ok h).2.2 z]
  split <;> simp_all

theorem coloursAt_of_revise_of_ne (h : s.revise a = .ok (n, t)) {z : Variable}
    (hz : z ≠ a.target) : t.coloursAt z = s.coloursAt z := by
  rw [(coloursAt_of_revise_eq_ok h).2.2 z, if_neg hz]

/-- Revising an arc settles it. -/
theorem settled_of_revise (h : s.revise a = .ok (n, t)) (hne : a.support ≠ a.target) :
    t.Settled a.target a.support := by
  intro c honly hc
  have hsupport : s.only a.support c = true := by
    rw [only_iff] at honly ⊢
    rwa [coloursAt_of_revise_of_ne h hne] at honly
  rw [((mem_coloursAt_of_revise h).1 hc).2 rfl] at hsupport
  exact Bool.false_ne_true hsupport

/-- If revising an arc took anything away, that was the only colour of its support. -/
theorem exists_only_of_revise (h : s.revise a = .ok (n + 1, t)) :
    ∃ c ∈ s.coloursAt a.target, s.only a.support c = true := by
  have hlen := (coloursAt_of_revise_eq_ok h).2.1
  obtain ⟨c, hc⟩ := List.exists_mem_of_length_pos (show 0 < _ by rw [← hlen]; exact Nat.succ_pos n)
  exact ⟨c, List.mem_filter.1 hc⟩

/-- **A closed sub-store survives a revision.** The only colour of the support is the only one that
the closed sub-store has there, so that none of its neighbours has it. -/
theorem subset_of_revise (he : e.IsClosedIn g d) (hd : ∀ x, s.coloursAt x ⊆ d.coloursAt x)
    (hs : ∀ x, e.coloursAt x ⊆ s.coloursAt x) (harc : a.support ∈ g.row a.target)
    (h : s.revise a = .ok (n, t)) (x : Variable) : e.coloursAt x ⊆ t.coloursAt x := by
  intro c hc
  refine (mem_coloursAt_of_revise h).2 ⟨hs x hc, ?_⟩
  rintro rfl
  by_contra honly
  rw [Bool.not_eq_false] at honly
  have hne : e.coloursAt a.support ≠ [] := fun hnil ↦
    List.ne_nil_of_mem (hd _ (mem_coloursAt_of_only honly)) (he.eq_nil _ hnil)
  refine he.closed _ _ c harc (fun c' ↦ ⟨fun hc' ↦ (only_iff.1 honly c').1 (hs _ hc'), ?_⟩) hc
  rintro rfl
  obtain ⟨b, hb⟩ := List.exists_mem_of_ne_nil _ hne
  exact (only_iff.1 honly b).1 (hs _ hb) ▸ hb

end Store

/-! ### Arcs in any order -/

/-- The arcs that a change because of `a` puts on the list again: those from the other neighbours of
its target. -/
def Graph.woken (g : Graph) (a : Arc) : List Arc :=
  ((g.row a.target).filter (· != a.support)).map fun z ↦ ⟨z, a.target⟩

theorem Graph.mem_woken {g : Graph} {a b : Arc} :
    b ∈ g.woken a ↔ b.target ∈ g.row a.target ∧ b.target ≠ a.support ∧ b.support = a.target := by
  simp only [Graph.woken, List.mem_map, List.mem_filter, bne_iff_ne]
  constructor
  · rintro ⟨z, ⟨hz, hne⟩, rfl⟩
    exact ⟨hz, hne, rfl⟩
  · rintro ⟨hz, hne, hb⟩
    exact ⟨b.target, ⟨hz, hne⟩, by rw [← hb]⟩

/-- Waking the arcs to a target brings only arcs of the graph onto the list. -/
theorem Graph.forall_mem_append_woken {g : Graph} (hg : g.Simple) {rest : List Arc} {a : Arc}
    (h : ∀ b ∈ a :: rest, b.support ∈ g.row b.target) :
    ∀ b ∈ rest ++ g.woken a, b.support ∈ g.row b.target := by
  intro b hb
  rcases List.mem_append.1 hb with hb | hb
  · exact h b (List.mem_cons_of_mem _ hb)
  · obtain ⟨htarget, -, hsupport⟩ := Graph.mem_woken.1 hb
    exact hsupport ▸ hg.symm htarget

namespace Propagation

/-- A propagation at work: the arcs on the list, and the store. -/
structure Sweep where
  /-- The arcs that are still to be revised. -/
  pending : List Arc
  /-- The domains at this point. -/
  store : Store

/-- One arc is taken from the list, wherever it stands, and revised without emptying a domain. -/
inductive Step (g : Graph) : Sweep → Sweep → Prop where
  /-- The revision changes nothing. -/
  | idle {pending rest : List Arc} {a : Arc} {s t : Store} (taken : pending.Perm (a :: rest))
      (revised : s.revise a = .ok (0, t)) : Step g ⟨pending, s⟩ ⟨rest, s⟩
  /-- The revision takes colours away, and the arcs to the target are put on the list. -/
  | pruned {pending rest : List Arc} {a : Arc} {s t : Store} {n : Nat}
      (taken : pending.Perm (a :: rest)) (revised : s.revise a = .ok (n + 1, t))
      (left : t.coloursAt a.target ≠ []) : Step g ⟨pending, s⟩ ⟨rest ++ g.woken a, t⟩

/-- How a propagation may end that takes the arcs in any order: the arc that emptied a domain, if
one did, and the store that is left. -/
inductive Ends (g : Graph) (v : Sweep) : Option Arc → Store → Prop where
  /-- The list is worked off. -/
  | drained {t : Store} (run : ReflTransGen (Step g) v ⟨[], t⟩) : Ends g v none t
  /-- A revision empties a domain. -/
  | wiped {pending rest : List Arc} {a : Arc} {s t : Store} {n : Nat}
      (run : ReflTransGen (Step g) v ⟨pending, s⟩) (taken : pending.Perm (a :: rest))
      (revised : s.revise a = .ok (n + 1, t)) (gone : t.coloursAt a.target = []) :
      Ends g v (some a) t

theorem Ends.head {g : Graph} {v w : Sweep} {r : Option Arc} {t : Store} (h : Step g v w) :
    Ends g w r t → Ends g v r t
  | .drained run => .drained (run.head h)
  | .wiped run taken revised gone => .wiped (run.head h) taken revised gone

/-! ### What every step keeps -/

/-- What is known of a propagation of `d` at every step. -/
structure Sweep.Sound (g : Graph) (d : Store) (v : Sweep) : Prop where
  /-- The variables stay the same. -/
  size_eq : v.store.size = d.size
  /-- Only arcs of the graph are on the list. -/
  arcs : ∀ a ∈ v.pending, a.support ∈ g.row a.target
  /-- What is left of a domain stands in the order in which it stood. -/
  kept : ∀ x, ∃ p : Colour → Bool, v.store.coloursAt x = (d.coloursAt x).filter p
  /-- No domain has been emptied. -/
  eq_nil : ∀ x, v.store.coloursAt x = [] → d.coloursAt x = []
  /-- Every arc that is not on the list is settled. -/
  settled : ∀ x y, y ∈ g.row x → ⟨x, y⟩ ∈ v.pending ∨ v.store.Settled x y
  /-- No closed sub-store has lost a colour. -/
  above : ∀ e : Store, e.IsClosedIn g d → ∀ x, e.coloursAt x ⊆ v.store.coloursAt x

variable {g : Graph} {d : Store} {v w : Sweep}

theorem Sweep.Sound.sublist (h : v.Sound g d) (x : Variable) :
    (v.store.coloursAt x).Sublist (d.coloursAt x) := by
  obtain ⟨p, hp⟩ := h.kept x
  rw [hp]
  exact List.filter_sublist

theorem Sweep.Sound.subset (h : v.Sound g d) (x : Variable) :
    v.store.coloursAt x ⊆ d.coloursAt x :=
  (h.sublist x).subset

theorem sound_arcs (g : Graph) (d : Store) : Sweep.Sound g d ⟨g.arcs, d⟩ where
  size_eq := rfl
  arcs _ ha := Graph.mem_arcs.1 ha
  kept _ := ⟨fun _ ↦ true, (List.filter_eq_self.2 fun _ _ ↦ rfl).symm⟩
  eq_nil _ h := h
  settled _ _ hy := Or.inl (Graph.mem_arcs.2 hy)
  above _ he := he.subset

/-- **A revision keeps what is known**, if it empties no domain and the arcs to its target are on
the list afterwards, except for the arc back from its support. -/
theorem Sweep.Sound.revise (hg : g.Simple) {s t : Store} {pending rest pending' : List Arc}
    {a : Arc} {n : Nat} (h : Sweep.Sound g d ⟨pending, s⟩) (taken : pending.Perm (a :: rest))
    (revised : s.revise a = .ok (n + 1, t)) (left : t.coloursAt a.target ≠ [])
    (hpending : pending' = rest ++ g.woken a) : Sweep.Sound g d ⟨pending', t⟩ := by
  subst hpending
  have harc : a.support ∈ g.row a.target := h.arcs a (taken.mem_iff.2 List.mem_cons_self)
  have hne : a.support ≠ a.target := fun heq ↦ hg.irrefl _ (heq ▸ harc)
  have hsub : ∀ x, t.coloursAt x ⊆ s.coloursAt x := fun x c hc ↦
    ((Store.mem_coloursAt_of_revise revised).1 hc).1
  refine ⟨?_, ?_, ?_, ?_, ?_, ?_⟩
  · exact (Store.coloursAt_of_revise_eq_ok revised).1.trans h.size_eq
  · exact Graph.forall_mem_append_woken hg fun b hb ↦ h.arcs b (taken.mem_iff.2 hb)
  · intro x
    obtain ⟨p, hp⟩ := h.kept x
    have hp : s.coloursAt x = (d.coloursAt x).filter p := hp
    by_cases hx : x = a.target
    · refine ⟨fun c ↦ !s.only a.support c && p c, ?_⟩
      rw [(Store.coloursAt_of_revise_eq_ok revised).2.2 x, if_pos hx, hp, List.filter_filter]
    · exact ⟨p, (Store.coloursAt_of_revise_of_ne revised hx).trans hp⟩
  · intro x hx
    by_cases hxa : x = a.target
    · exact absurd (hxa ▸ hx) left
    · exact h.eq_nil x ((Store.coloursAt_of_revise_of_ne revised hxa).symm.trans hx)
  · intro x y hy
    by_cases hya : y = a.target
    · -- An arc to the target is on the list again, unless it is the one back from the support.
      subst hya
      by_cases hx : x = a.support
      · subst hx
        right
        intro c honly hc
        obtain ⟨b, -, hb⟩ := Store.exists_only_of_revise revised
        obtain rfl : c = b := (Store.only_iff.1 hb c).1 (hsub _ hc)
        have hc := Store.mem_coloursAt_of_only honly
        have hgone := ((Store.mem_coloursAt_of_revise revised).1 hc).2 rfl
        exact Bool.false_ne_true (hgone.symm.trans hb)
      · exact Or.inl (List.mem_append_right _ (Graph.mem_woken.2 ⟨hg.symm hy, hx, rfl⟩))
    · have hy_eq : t.coloursAt y = s.coloursAt y := Store.coloursAt_of_revise_of_ne revised hya
      rcases h.settled x y hy with hpending | hsettled
      · rcases List.mem_cons.1 (taken.mem_iff.1 hpending) with rfl | hrest
        · exact Or.inr (Store.settled_of_revise revised hne)
        · exact Or.inl (List.mem_append_left _ hrest)
      · refine Or.inr fun c honly hc ↦ hsettled c ?_ (hsub x hc)
        rw [Store.only_iff] at honly ⊢
        rwa [hy_eq] at honly
  · exact fun e he ↦ Store.subset_of_revise he h.subset (h.above e he) harc revised

/-- A step keeps what is known. -/
theorem Sweep.Sound.step (hg : g.Simple) (h : v.Sound g d) (hstep : Step g v w) : w.Sound g d := by
  cases hstep with
  | @idle pending rest a s t taken revised =>
    obtain rfl : t = s := Store.eq_of_revise_eq_ok_zero revised
    have harc : a.support ∈ g.row a.target := h.arcs a (taken.mem_iff.2 List.mem_cons_self)
    have hne : a.support ≠ a.target := fun heq ↦ hg.irrefl _ (heq ▸ harc)
    refine ⟨h.size_eq, ?_, h.kept, h.eq_nil, ?_, h.above⟩
    · exact fun b hb ↦ h.arcs b (taken.mem_iff.2 (List.mem_cons_of_mem _ hb))
    · intro x y hy
      rcases h.settled x y hy with hpending | hsettled
      · rcases List.mem_cons.1 (taken.mem_iff.1 hpending) with rfl | hrest
        · exact Or.inr (Store.settled_of_revise revised hne)
        · exact Or.inl hrest
      · exact Or.inr hsettled
  | pruned taken revised left => exact h.revise hg taken revised left rfl

/-- **Every run keeps what is known.** -/
theorem Sweep.Sound.run (hg : g.Simple) (h : v.Sound g d) (hrun : ReflTransGen (Step g) v w) :
    w.Sound g d := by
  induction hrun with
  | refl => exact h
  | tail _ hstep ih => exact ih.step hg hstep

/-! ### How a run ends -/

/-- A list that is worked off leaves a closed sub-store, and no other has more. -/
theorem Sweep.Sound.isGreatest {t : Store} (h : Sweep.Sound g d ⟨[], t⟩) :
    t.IsGreatestClosedIn g d := by
  refine ⟨⟨h.size_eq, h.subset, h.eq_nil, ?_⟩, h.above⟩
  intro x y c hy honly
  exact (h.settled x y hy).resolve_left List.not_mem_nil c (Store.only_iff.2 honly)

/-- Two lists that are worked off leave the same store, since each contains the other. -/
theorem Sweep.Sound.eq_of_nil {t t' : Store} (h : Sweep.Sound g d ⟨[], t⟩)
    (h' : Sweep.Sound g d ⟨[], t'⟩) : t = t' := by
  refine Store.eq_of_coloursAt_eq (h.size_eq.trans h'.size_eq.symm) fun x ↦ ?_
  obtain ⟨p, hp⟩ := h.kept x
  obtain ⟨q, hq⟩ := h'.kept x
  have hp : t.coloursAt x = (d.coloursAt x).filter p := hp
  have hq : t'.coloursAt x = (d.coloursAt x).filter q := hq
  have hsub : t.coloursAt x ⊆ t'.coloursAt x := h'.above t h.isGreatest.1 x
  have hsub' : t'.coloursAt x ⊆ t.coloursAt x := h.above t' h'.isGreatest.1 x
  rw [hp, hq] at hsub hsub' ⊢
  refine List.filter_congr fun c hc ↦ Bool.eq_iff_iff.2 ⟨fun hpc ↦ ?_, fun hqc ↦ ?_⟩
  · exact (List.mem_filter.1 (hsub (List.mem_filter.2 ⟨hc, hpc⟩))).2
  · exact (List.mem_filter.1 (hsub' (List.mem_filter.2 ⟨hc, hqc⟩))).2

/-- If a revision empties a domain there is no closed sub-store: it would have to leave that
variable a colour, and would keep it through the revision. -/
theorem Sweep.Sound.not_exists_isClosedIn {s t : Store} {pending rest : List Arc} {a : Arc}
    {n : Nat} (h : Sweep.Sound g d ⟨pending, s⟩) (taken : pending.Perm (a :: rest))
    (revised : s.revise a = .ok (n + 1, t)) (gone : t.coloursAt a.target = []) :
    ¬∃ e : Store, e.IsClosedIn g d := by
  rintro ⟨e, he⟩
  have harc : a.support ∈ g.row a.target := h.arcs a (taken.mem_iff.2 List.mem_cons_self)
  have hsub := Store.subset_of_revise he h.subset (h.above e he) harc revised a.target
  obtain ⟨c, hc, -⟩ := Store.exists_only_of_revise revised
  have hnil : e.coloursAt a.target = [] := List.eq_nil_of_subset_nil (gone ▸ hsub)
  exact List.ne_nil_of_mem (h.subset _ hc) (he.eq_nil _ hnil)

/-- The revision that empties a domain empties that of its target and no other. -/
theorem Sweep.Sound.coloursAt_eq_nil_iff {s t : Store} {pending : List Arc} {a : Arc} {n : Nat}
    (h : Sweep.Sound g d ⟨pending, s⟩) (revised : s.revise a = .ok (n + 1, t))
    (gone : t.coloursAt a.target = []) :
    d.coloursAt a.target ≠ [] ∧
      ∀ x, d.coloursAt x ≠ [] → (t.coloursAt x = [] ↔ x = a.target) := by
  obtain ⟨c, hc, -⟩ := Store.exists_only_of_revise revised
  refine ⟨List.ne_nil_of_mem (h.subset _ hc), fun x hx ↦ ⟨fun hnil ↦ ?_, fun hxa ↦ hxa ▸ gone⟩⟩
  by_contra hxa
  exact hx (h.eq_nil x ((Store.coloursAt_of_revise_of_ne revised hxa).symm.trans hnil))

/-- **A propagation ends well exactly if there is a closed sub-store**, whatever the order in which
it takes the arcs. -/
theorem Ends.eq_none_iff (hg : g.Simple) {r : Option Arc} {t : Store} (h : Ends g ⟨g.arcs, d⟩ r t) :
    r = none ↔ ∃ e : Store, e.IsClosedIn g d := by
  have hsound := sound_arcs g d
  cases h with
  | drained run => simpa using ⟨t, (hsound.run hg run).isGreatest.1⟩
  | wiped run taken revised gone =>
    simpa using (hsound.run hg run).not_exists_isClosedIn taken revised gone

theorem Ends.sound (hg : g.Simple) {t : Store} (h : Ends g ⟨g.arcs, d⟩ none t) :
    Sweep.Sound g d ⟨[], t⟩ := by
  cases h with
  | drained run => exact (sound_arcs g d).run hg run

theorem Ends.coloursAt_eq_nil_iff (hg : g.Simple) {a : Arc} {t : Store}
    (h : Ends g ⟨g.arcs, d⟩ (some a) t) :
    d.coloursAt a.target ≠ [] ∧
      ∀ x, d.coloursAt x ≠ [] → (t.coloursAt x = [] ↔ x = a.target) := by
  cases h with
  | wiped run taken revised gone =>
    exact ((sound_arcs g d).run hg run).coloursAt_eq_nil_iff revised gone

/-! ### The list as it is worked off -/

theorem drain_of_revise_error {s : Store} {a : Arc} {e : Fault} (h : s.revise a = .error e)
    (rest : List Arc) (c : Statistics) : drain g (a :: rest) s c = .error e := by
  rw [drain]
  split <;> simp_all

theorem drain_of_revise_zero {s t : Store} {a : Arc} (h : s.revise a = .ok (0, t))
    (rest : List Arc) (c : Statistics) :
    drain g (a :: rest) s c = drain g rest s (c.revised 0) := by
  rw [drain]
  split <;> simp_all

theorem drain_of_revise_pos {s t : Store} {a : Arc} {n : Nat} (h : s.revise a = .ok (n + 1, t))
    (rest : List Arc) (c : Statistics) :
    drain g (a :: rest) s c = (do
      let c := c.revised (n + 1)
      if ← t.isEmptyAt a.target then
        return ⟨t, some a, { c with wipeouts := c.wipeouts + 1 }⟩
      let row ← g.neighboursOf a.target
      drain g (rest ++ (row.filter (· != a.support)).map fun z ↦ ⟨z, a.target⟩) t c) := by
  conv_lhs => rw [drain]
  split <;> simp_all

/-- A revision that takes colours away ends the propagation or puts the arcs to its target at the
end of the list. -/
theorem drain_of_revise_succ (hg : g.Simple) {s t : Store} {a : Arc} {n : Nat}
    (h : s.revise a = .ok (n + 1, t)) (htarget : a.target < g.size) (hs : g.size ≤ s.size)
    (rest : List Arc) (c : Statistics) :
    drain g (a :: rest) s c =
      if t.coloursAt a.target = [] then
        .ok ⟨t, some a, { c.revised (n + 1) with wipeouts := (c.revised (n + 1)).wipeouts + 1 }⟩
      else drain g (rest ++ g.woken a) t (c.revised (n + 1)) := by
  have ht : a.target < t.size :=
    (Store.coloursAt_of_revise_eq_ok h).1 ▸ htarget.trans_le hs
  rw [drain_of_revise_pos h, Store.isEmptyAt_eq_ok ht, ok_bind, hg.neighboursOf_eq_ok htarget,
    ok_bind]
  simp only [List.isEmpty_iff]
  rfl

/-- Working the list off from its front meets no fault and ends as some order of the arcs does. -/
theorem exists_drain_eq_ok (hg : g.Simple) (pending : List Arc) (s : Store) (c : Statistics)
    (hs : g.size ≤ s.size) (hpending : ∀ a ∈ pending, a.support ∈ g.row a.target) :
    ∃ o, drain g pending s c = .ok o ∧ Ends g ⟨pending, s⟩ o.wipedOut o.store := by
  have hok : ∀ {a : Arc} {rest : List Arc} {s : Store}, g.size ≤ s.size →
      (∀ b ∈ a :: rest, b.support ∈ g.row b.target) → ∃ n t, s.revise a = .ok (n, t) :=
    fun hs hpending ↦ Store.exists_revise_eq_ok
      ((hg.lt_size_left (hpending _ List.mem_cons_self)).trans_le hs)
      ((hg.lt_size_right (hpending _ List.mem_cons_self)).trans_le hs)
  induction pending, s, c using drain.induct with
  | case1 s c => exact ⟨_, by rw [drain], .drained .refl⟩
  | case2 s c a rest e he =>
    obtain ⟨n, t, hrevise⟩ := hok hs hpending
    rw [he] at hrevise
    cases hrevise
  | case3 s c a rest t hrevise ih =>
    obtain ⟨o, ho, hends⟩ := ih hs fun b hb ↦ hpending b (List.mem_cons_of_mem _ hb)
    exact ⟨o, (drain_of_revise_zero hrevise rest c).trans ho, hends.head (.idle (.refl _) hrevise)⟩
  | case4 s c a rest n t hrevise c' ih =>
    have harc : a.support ∈ g.row a.target := hpending a List.mem_cons_self
    rw [drain_of_revise_succ hg hrevise (hg.lt_size_left harc) hs]
    split
    · rename_i hgone
      exact ⟨_, rfl, .wiped .refl (.refl _) hrevise hgone⟩
    · rename_i hleft
      have hsize : g.size ≤ t.size := (Store.coloursAt_of_revise_eq_ok hrevise).1 ▸ hs
      obtain ⟨o, ho, hends⟩ :=
        ih (g.row a.target) hsize (Graph.forall_mem_append_woken hg hpending)
      exact ⟨o, ho, hends.head (.pruned (.refl _) hrevise hleft)⟩

end Propagation

/-- Propagation meets no fault on a store that covers the graph, and ends as some order of the arcs
does. -/
theorem exists_propagate_eq_ok {g : Graph} (hg : g.Simple) {d : Store} (hd : g.size ≤ d.size)
    (c : Propagation.Statistics) :
    ∃ o, propagate g d c = .ok o ∧ Propagation.Ends g ⟨g.arcs, d⟩ o.wipedOut o.store :=
  Propagation.exists_drain_eq_ok hg _ _ _ hd fun _ ha ↦ Graph.mem_arcs.1 ha

/-- However a propagation ended, some order of the arcs ends so. -/
theorem ends_of_propagate {g : Graph} (hg : g.Simple) {d : Store} (hd : g.size ≤ d.size)
    {c : Propagation.Statistics} {o : Propagation.Outcome} (h : propagate g d c = .ok o) :
    Propagation.Ends g ⟨g.arcs, d⟩ o.wipedOut o.store := by
  obtain ⟨o', ho', hends⟩ := exists_propagate_eq_ok hg hd c
  obtain rfl : o = o' := Except.ok.inj (h.symm.trans ho')
  exact hends

/-- **Propagation computes the greatest closed sub-store.** On any store that covers a declared
graph it succeeds exactly if the store has a closed sub-store, and then leaves the one that contains
all others; otherwise it has emptied the domain of one variable and of no other. A run that takes
the arcs in another order succeeds with it, and then leaves the same store. -/
theorem propagate_greatest_closed_store (calls : List Declaration) (d : Store)
    (c : Propagation.Statistics) (hd : (Graph.declared calls).size ≤ d.size) :
    ∃ o, propagate (Graph.declared calls) d c = .ok o ∧
      (o.wipedOut = none ↔ ∃ e : Store, e.IsClosedIn (Graph.declared calls) d) ∧
      (o.wipedOut = none → o.store.IsGreatestClosedIn (Graph.declared calls) d) ∧
      (∀ a, o.wipedOut = some a → d.coloursAt a.target ≠ [] ∧
        ∀ x, d.coloursAt x ≠ [] → (o.store.coloursAt x = [] ↔ x = a.target)) ∧
      Propagation.Ends (Graph.declared calls) ⟨(Graph.declared calls).arcs, d⟩ o.wipedOut o.store ∧
      ∀ r t, Propagation.Ends (Graph.declared calls) ⟨(Graph.declared calls).arcs, d⟩ r t →
        (r = none ↔ o.wipedOut = none) ∧ (r = none → t = o.store) := by
  have hg := Graph.simple_declared calls
  obtain ⟨o, ho, hends⟩ := exists_propagate_eq_ok hg hd c
  have hsound : o.wipedOut = none → Propagation.Sweep.Sound _ d ⟨[], o.store⟩ := fun hnone ↦
    (hnone ▸ hends).sound hg
  refine ⟨o, ho, hends.eq_none_iff hg, fun hnone ↦ (hsound hnone).isGreatest, ?_, hends, ?_⟩
  · intro a ha
    exact (ha ▸ hends).coloursAt_eq_nil_iff hg
  · intro r t hrt
    have hiff : r = none ↔ o.wipedOut = none :=
      (hrt.eq_none_iff hg).trans (hends.eq_none_iff hg).symm
    refine ⟨hiff, ?_⟩
    rintro rfl
    exact (hrt.sound hg).eq_of_nil (hsound (hiff.1 rfl))

/-- On a path of three vertices, whose domains are `[1]`, `[1, 2]` and empty, propagation succeeds:
the domains `[1]`, `[2]` and the empty one are closed. -/
theorem propagate_greatest_closed_store_path :
    (Graph.declared [.edge 1 2, .edge 2 3]).size ≤ (⟨.ofList [⟨[1]⟩, ⟨[1, 2]⟩, {}]⟩ : Store).size ∧
      ∃ o, propagate (Graph.declared [.edge 1 2, .edge 2 3])
        ⟨.ofList [⟨[1]⟩, ⟨[1, 2]⟩, {}]⟩ {} = .ok o ∧
        o.wipedOut = none ∧ 2 ∈ o.store.coloursAt 1 ∧ 1 ∉ o.store.coloursAt 1 := by
  have hd : (Graph.declared [.edge 1 2, .edge 2 3]).size ≤
    (⟨.ofList [⟨[1]⟩, ⟨[1, 2]⟩, {}]⟩ : Store).size := by decide
  have hclosed : (⟨.ofList [⟨[1]⟩, ⟨[2]⟩, {}]⟩ : Store).IsClosedIn
      (Graph.declared [.edge 1 2, .edge 2 3]) ⟨.ofList [⟨[1]⟩, ⟨[1, 2]⟩, {}]⟩ := by
    refine ⟨rfl, ?_, ?_, fun x y c hy honly hc ↦ ?_⟩
    · rintro (_ | _ | _ | x) <;> simp [Store.coloursAt, Table.getD_ofList]
    · rintro (_ | _ | _ | x) <;> simp [Store.coloursAt, Table.getD_ofList]
    · have hx : x < 3 := (Graph.simple_declared _).lt_size_left hy
      have hkey : ∀ x < 3, ∀ y ∈ (Graph.declared [.edge 1 2, .edge 2 3]).row x,
          ∀ c ∈ (⟨.ofList [⟨[1]⟩, ⟨[2]⟩, {}]⟩ : Store).coloursAt x,
          (⟨.ofList [⟨[1]⟩, ⟨[2]⟩, {}]⟩ : Store).only y c = false := by decide
      exact Bool.false_ne_true ((hkey x hx y hy c hc).symm.trans (Store.only_iff.2 honly))
  obtain ⟨o, ho, hiff, hgreatest, -⟩ := propagate_greatest_closed_store _ _ {} hd
  have hnone : o.wipedOut = none := hiff.2 ⟨_, hclosed⟩
  obtain ⟨hstore, habove⟩ := hgreatest hnone
  refine ⟨hd, o, ho, hnone, habove _ hclosed 1 (by decide), fun hmem ↦ ?_⟩
  -- The first vertex keeps its colour, so its neighbour cannot.
  have hzero : ∀ c, c ∈ o.store.coloursAt 0 ↔ c = 1 := by
    intro c
    constructor
    · intro hc
      have := hstore.subset 0 hc
      simpa [Store.coloursAt, Table.getD_ofList] using this
    · rintro rfl
      exact habove _ hclosed 0 (by decide)
  exact hstore.closed 1 0 1 (by decide) hzero hmem

end GraphSearch.Colouring
