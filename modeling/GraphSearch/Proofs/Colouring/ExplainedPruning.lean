import GraphSearch.Proofs.Colouring.WholePalette
import Mathlib

/-!
# What is pruned is explained by what is left

A colour that propagation takes away is the only colour of a neighbour at that moment. The neighbour
keeps it: it could lose it only by being emptied, and then the propagation would have ended there
(`Sweep.only_of_step`). So at every step each colour that is gone is still the only one of some
neighbour (`Sweep.Explained`), and in the end, when every arc is settled, those are exactly the
colours that are gone (`propagate_prunes_explained`). Nothing is left to be done for a second
propagation.

The store need not cover the graph here. That a propagation succeeds is enough, since it has then
looked at both ends of every arc (`Sweep.covers_of_run`).
-/

namespace GraphSearch.Colouring

open Relation

namespace Store

variable {s t : Store} {a : Arc} {n : Nat}

/-- What is revised is in the store. -/
theorem lt_size_of_revise (h : s.revise a = .ok (n, t)) :
    a.target < s.size ∧ a.support < s.size := by
  obtain ⟨_, hsupport, h⟩ := bind_eq_ok_iff.1 h
  obtain ⟨_, htarget, -⟩ := bind_eq_ok_iff.1 h
  exact ⟨(domainOf_eq_ok_iff.1 htarget).1, (domainOf_eq_ok_iff.1 hsupport).1⟩

/-- A single colour without repetitions is all that there is. -/
theorem only_iff_of_nodup {y : Variable} {b : Colour} (h : (s.coloursAt y).Nodup) :
    s.only y b = true ↔ s.coloursAt y = [b] := by
  rw [only_iff]
  constructor
  · intro honly
    have hsame := List.perm_ext_iff_of_nodup h (List.nodup_singleton b)
    refine List.perm_singleton.1 (hsame.2 fun c ↦ ?_)
    rw [honly c, List.mem_singleton]
  · intro heq c
    rw [heq, List.mem_singleton]

end Store

namespace Propagation

variable {g : Graph} {d : Store} {v w : Sweep}

/-! ### Only colours stay -/

/-- A step leaves every variable some of its colours, and empties no domain. -/
theorem Sweep.sublist_of_step (h : Step g v w) (x : Variable) :
    w.store.coloursAt x ⊆ v.store.coloursAt x ∧
      (w.store.coloursAt x = [] → v.store.coloursAt x = []) := by
  cases h with
  | idle => exact ⟨List.Subset.refl _, id⟩
  | @pruned pending rest a s t n taken revised left =>
    refine ⟨fun c hc ↦ ((Store.mem_coloursAt_of_revise revised).1 hc).1, fun hnil ↦ ?_⟩
    by_cases hx : x = a.target
    · exact absurd (hx ▸ hnil) left
    · rwa [Store.coloursAt_of_revise_of_ne revised hx] at hnil

/-- **The only colour of a variable stays.** A step could take it away only by leaving nothing. -/
theorem Sweep.only_of_step (h : Step g v w) {y : Variable} {c : Colour}
    (honly : v.store.only y c = true) : w.store.only y c = true := by
  obtain ⟨hsub, hnil⟩ := Sweep.sublist_of_step h y
  have hall : ∀ c' ∈ w.store.coloursAt y, c' = c := fun c' hc' ↦
    (Store.only_iff.1 honly c').1 (hsub hc')
  have hne : w.store.coloursAt y ≠ [] := fun hw ↦
    List.ne_nil_of_mem (Store.mem_coloursAt_of_only honly) (hnil hw)
  obtain ⟨b, hb⟩ := List.exists_mem_of_ne_nil _ hne
  refine Store.only_iff.2 fun c' ↦ ⟨hall c', ?_⟩
  rintro rfl
  exact hall b hb ▸ hb

/-! ### Every colour that is gone is explained -/

/-- Each colour of `d` that is gone is the only one of some neighbour. -/
def Sweep.Explained (g : Graph) (d : Store) (v : Sweep) : Prop :=
  ∀ x, ∀ c ∈ d.coloursAt x, c ∉ v.store.coloursAt x → ∃ y ∈ g.row x, v.store.only y c = true

theorem explained_arcs (g : Graph) (d : Store) : Sweep.Explained g d ⟨g.arcs, d⟩ :=
  fun _ _ hc hgone ↦ absurd hc hgone

/-- A step explains what it takes away, and leaves the other explanations as they are. -/
theorem Sweep.Explained.step (h : v.Explained g d) (hsound : v.Sound g d) (hstep : Step g v w) :
    w.Explained g d := by
  intro x c hc hgone
  by_cases hv : c ∈ v.store.coloursAt x
  · -- This step has taken the colour away.
    suffices hsome : ∃ y ∈ g.row x, v.store.only y c = true by
      obtain ⟨y, hy, honly⟩ := hsome
      exact ⟨y, hy, only_of_step hstep honly⟩
    cases hstep with
    | idle => exact absurd hv hgone
    | @pruned pending rest a s t n taken revised left =>
      have harc : a.support ∈ g.row a.target := hsound.arcs a (taken.mem_iff.2 List.mem_cons_self)
      have hkept := mt (Store.mem_coloursAt_of_revise revised).2 hgone
      rw [not_and, not_forall] at hkept
      obtain ⟨rfl, honly⟩ := hkept hv
      exact ⟨_, harc, Bool.not_eq_false _ ▸ honly⟩
  · obtain ⟨y, hy, honly⟩ := h x c hc hv
    exact ⟨y, hy, only_of_step hstep honly⟩

/-- **Every run leaves what is gone explained.** -/
theorem Sweep.Explained.run (hg : g.Simple) (h : v.Explained g d) (hsound : v.Sound g d)
    (hrun : ReflTransGen (Step g) v w) : w.Explained g d := by
  induction hrun with
  | refl => exact h
  | tail hbefore hstep ih => exact ih.step (hsound.run hg hbefore) hstep

/-- **When every arc is settled, the colours that are gone are the only ones of neighbours.** -/
theorem Sweep.Explained.coloursAt_eq_filter {t : Store} (h : Sweep.Explained g d ⟨[], t⟩)
    (hsound : Sweep.Sound g d ⟨[], t⟩) (hd : ∀ x, (d.coloursAt x).Nodup) (x : Variable) :
    t.coloursAt x =
      (d.coloursAt x).filter fun c ↦ ¬∃ y ∈ g.row x, t.coloursAt y = [c] := by
  have honly : ∀ y c, t.only y c = true ↔ t.coloursAt y = [c] := fun y c ↦
    Store.only_iff_of_nodup ((hd y).sublist (hsound.sublist y))
  obtain ⟨p, hp⟩ := hsound.kept x
  have hp : t.coloursAt x = (d.coloursAt x).filter p := hp
  have hmem : ∀ c ∈ d.coloursAt x, c ∈ t.coloursAt x ↔ p c = true := fun c hc ↦ by
    rw [hp, List.mem_filter, and_iff_right hc]
  rw [hp]
  refine List.filter_congr fun c hc ↦ ?_
  rw [Bool.eq_iff_iff, ← hmem c hc, decide_eq_true_eq]
  constructor
  · rintro hleft ⟨y, hy, hyc⟩
    exact (hsound.settled x y hy).resolve_left List.not_mem_nil c ((honly y c).2 hyc) hleft
  · intro hnone
    by_contra hgone
    obtain ⟨y, hy, hyc⟩ := h x c hc hgone
    exact hnone ⟨y, hy, (honly y c).1 hyc⟩

/-! ### A propagation that succeeds -/

/-- Both ends of every arc on the list are in the store. -/
def Sweep.Covers (v : Sweep) : Prop :=
  ∀ a ∈ v.pending, a.target < v.store.size ∧ a.support < v.store.size

/-- What is taken from the list is in the store. -/
theorem Sweep.covers_of_step (h : Step g v w) (hw : w.Covers) : v.Covers := by
  cases h with
  | @idle pending rest a s t taken revised =>
    intro b hb
    rcases List.mem_cons.1 (taken.mem_iff.1 hb) with rfl | hrest
    · exact Store.lt_size_of_revise revised
    · exact hw b hrest
  | @pruned pending rest a s t n taken revised left =>
    intro b hb
    rcases List.mem_cons.1 (taken.mem_iff.1 hb) with rfl | hrest
    · exact Store.lt_size_of_revise revised
    · have hsize : t.size = s.size := (Store.coloursAt_of_revise_eq_ok revised).1
      exact hsize ▸ hw b (List.mem_append_left _ hrest)

/-- A list that is worked off was in the store. -/
theorem Sweep.covers_of_run {t : Store} (h : ReflTransGen (Step g) v ⟨[], t⟩) : v.Covers := by
  induction h using ReflTransGen.head_induction_on with
  | refl => exact fun _ ha ↦ absurd ha List.not_mem_nil
  | head hstep _ ih => exact covers_of_step hstep ih

/-- Working the list off from its front ends as some order of the arcs does, if it succeeds. -/
theorem ends_of_drain (hg : g.Simple) {pending : List Arc} {s : Store} {c : Statistics}
    {o : Outcome} (hpending : ∀ a ∈ pending, a.support ∈ g.row a.target)
    (h : drain g pending s c = .ok o) : Ends g ⟨pending, s⟩ o.wipedOut o.store := by
  induction pending, s, c using drain.induct with
  | case1 s c =>
    rw [drain] at h
    obtain rfl := Except.ok.inj h
    exact .drained .refl
  | case2 s c a rest e he => cases (drain_of_revise_error he rest c).symm.trans h
  | case3 s c a rest t hrevise ih =>
    rw [drain_of_revise_zero hrevise] at h
    exact (ih (fun b hb ↦ hpending b (List.mem_cons_of_mem _ hb)) h).head
      (.idle (.refl _) hrevise)
  | case4 s c a rest n t hrevise c' ih =>
    rw [drain_of_revise_pos hrevise] at h
    obtain ⟨b, hempty, h⟩ := bind_eq_ok_iff.1 h
    obtain ⟨-, rfl⟩ := Store.isEmptyAt_eq_ok_iff.1 hempty
    by_cases hgone : t.coloursAt a.target = []
    · rw [if_pos (List.isEmpty_iff.2 hgone)] at h
      obtain rfl := Except.ok.inj h
      exact .wiped .refl (.refl _) hrevise hgone
    · rw [if_neg (mt List.isEmpty_iff.1 hgone),
        hg.neighboursOf_eq_ok (hg.lt_size_left (hpending a List.mem_cons_self)), ok_bind] at h
      exact (ih (g.row a.target) (Graph.forall_mem_append_woken hg hpending) h).head
        (.pruned (.refl _) hrevise hgone)

end Propagation

/-- **What propagation takes away is what its result explains.** If it succeeds on a store whose
domains have no repetitions, every variable has lost exactly the colours that a neighbour is left
with as its single one, and the others stand in their order. Nothing is left to be done: a second
propagation succeeds and counts no revision. -/
theorem propagate_prunes_explained (calls : List Declaration) (d : Store)
    (hd : ∀ x, (d.coloursAt x).Nodup) (c : Propagation.Statistics) (o : Propagation.Outcome)
    (h : propagate (Graph.declared calls) d c = .ok o) (hnone : o.wipedOut = none) :
    o.store.size = d.size ∧
      (∀ x, o.store.coloursAt x = (d.coloursAt x).filter fun b ↦
        ¬∃ y ∈ (Graph.declared calls).row x, o.store.coloursAt y = [b]) ∧
      (∀ x, (o.store.coloursAt x).Sublist (d.coloursAt x)) ∧
      ∀ c', propagate (Graph.declared calls) o.store c' = .ok ⟨o.store, none,
        { c' with calls := c'.calls + 1
                  arcsProcessed := c'.arcsProcessed + (Graph.declared calls).arcs.length }⟩ := by
  have hg := Graph.simple_declared calls
  have hends := Propagation.ends_of_drain hg (fun _ ha ↦ Graph.mem_arcs.1 ha) h
  rw [hnone] at hends
  have hsound := hends.sound hg
  obtain ⟨hrun⟩ := hends
  have hexplained := (Propagation.explained_arcs _ d).run hg (Propagation.sound_arcs _ d) hrun
  refine ⟨hsound.size_eq, hexplained.coloursAt_eq_filter hsound hd, hsound.sublist, fun c' ↦ ?_⟩
  refine Propagation.drain_of_idle (fun a ha ↦ ?_) _
  -- Every arc is settled, so that revising it counts nothing.
  obtain ⟨htarget, hsupport⟩ := Propagation.Sweep.covers_of_run hrun a ha
  obtain ⟨n, t, hrevise⟩ := Store.exists_revise_eq_ok (hsound.size_eq ▸ htarget)
    (hsound.size_eq ▸ hsupport)
  have hsettled := (hsound.settled _ _ (Graph.mem_arcs.1 ha)).resolve_left List.not_mem_nil
  obtain ⟨-, hn, -⟩ := Store.coloursAt_of_revise_eq_ok hrevise
  have hidle : (o.store.coloursAt a.target).filter (o.store.only a.support) = [] :=
    List.filter_eq_nil_iff.2 fun b hb honly ↦ hsettled b honly hb
  obtain rfl : n = 0 := by rw [hn, hidle]; rfl
  rw [hrevise, Store.eq_of_revise_eq_ok_zero hrevise]

/-- On a path of four vertices the single colour of the first decides that of the second, which the
third loses from the front of its domain. The fourth has none left and explains nothing. -/
theorem propagate_prunes_explained_path :
    ∃ o : Propagation.Outcome, propagate (Graph.declared [.edge 1 2, .edge 2 3, .edge 3 4])
        ⟨.ofList [⟨[1]⟩, ⟨[1, 2]⟩, ⟨[2, 3, 1]⟩, {}]⟩ {} = .ok o ∧ o.wipedOut = none ∧
      (∀ x, ((⟨.ofList [⟨[1]⟩, ⟨[1, 2]⟩, ⟨[2, 3, 1]⟩, {}]⟩ : Store).coloursAt x).Nodup) ∧
      (o.store.coloursAt 2 = ([2, 3, 1] : List Colour).filter fun b ↦
        ¬∃ y ∈ ([1, 3] : List Variable), o.store.coloursAt y = [b]) ∧
      o.store.coloursAt 2 = [3, 1] ∧
      propagate (Graph.declared [.edge 1 2, .edge 2 3, .edge 3 4]) o.store {} =
        .ok ⟨o.store, none, { calls := 1, arcsProcessed := 6 }⟩ := by
  have hnodup : ∀ x,
      ((⟨.ofList [⟨[1]⟩, ⟨[1, 2]⟩, ⟨[2, 3, 1]⟩, {}]⟩ : Store).coloursAt x).Nodup := by
    rintro (_ | _ | _ | _ | x) <;> simp [Store.coloursAt, Table.getD_ofList]
  have hrun : propagate (Graph.declared [.edge 1 2, .edge 2 3, .edge 3 4])
      ⟨.ofList [⟨[1]⟩, ⟨[1, 2]⟩, ⟨[2, 3, 1]⟩, {}]⟩ {} =
        .ok ⟨⟨.ofList [⟨[1]⟩, ⟨[2]⟩, ⟨[3, 1]⟩, {}]⟩, none, ⟨1, 0, 8, 2, 2⟩⟩ := by cbv
  obtain ⟨-, hfilter, -, hagain⟩ := propagate_prunes_explained _ _ hnodup {} _ hrun rfl
  exact ⟨_, hrun, rfl, hnodup, hfilter 2, rfl, hagain {}⟩

end GraphSearch.Colouring
