import GraphSearch.Proofs.Colouring.ExplainedPruning

/-!
# Domains that only lose colours

A store starts with the whole palette for each variable, and whatever is done to it takes colours
away: it leaves each variable some of its colours in the order in which they stood (`Store.Below`).
That holds of taking a colour away and of narrowing a variable at once, and of a propagation since
it holds of each of its revisions, whatever the graph is and however the propagation ends. So the
domains stay strictly ascending parts of the palette through any sequence of these calls
(`Store.Arises.below_full`).

A revision goes through all colours of its target and takes from it each that is the only one of its
support. Where no domain has a repetition, being the only one means that the support is a list of
one entry, and the target has that entry once. So a revision takes a single colour away, or nothing
(`Store.Arises.ascending_and_revise`).
-/

namespace GraphSearch.Colouring

namespace Store

variable {s t u : Store} {x : Variable} {c : Colour} {n k : Nat}

/-! ### What is left of a store -/

/-- The store `t` has what is left of `s`: of each variable some colours, in the order in which they
stood. -/
structure Below (t s : Store) : Prop where
  /-- The variables are the same. -/
  size_eq : t.size = s.size
  /-- No colour has been added or moved. -/
  sublist : ∀ x, (t.coloursAt x).Sublist (s.coloursAt x)

namespace Below

theorem refl (s : Store) : s.Below s := ⟨rfl, fun _ ↦ .refl _⟩

theorem trans (h : u.Below t) (h' : t.Below s) : u.Below s :=
  ⟨h.size_eq.trans h'.size_eq, fun x ↦ (h.sublist x).trans (h'.sublist x)⟩

/-- A store that differs in one domain only has what is left if that domain does. -/
theorem of_ite {f : Variable → List Colour} (hsize : t.size = s.size)
    (hf : ∀ z, (f z).Sublist (s.coloursAt z))
    (h : ∀ z, t.coloursAt z = if z = x then f z else s.coloursAt z) : t.Below s := by
  refine ⟨hsize, fun z ↦ ?_⟩
  rw [h]
  split
  · exact hf z
  · exact .refl _

end Below

theorem below_of_remove {b : Bool} (h : s.remove x c = .ok (b, t)) : t.Below s := by
  obtain ⟨hsize, ht⟩ := coloursAt_of_remove_eq_ok h
  exact .of_ite hsize (fun _ ↦ List.erase_sublist) ht

theorem below_of_narrow {b : Bool} (h : s.narrow x c = .ok (b, t)) : t.Below s := by
  obtain ⟨hsize, ht⟩ := coloursAt_of_narrow_eq_ok h
  exact .of_ite hsize (fun _ ↦ List.filter_sublist) ht

theorem below_of_revise {a : Arc} (h : s.revise a = .ok (n, t)) : t.Below s := by
  obtain ⟨hsize, -, ht⟩ := coloursAt_of_revise_eq_ok h
  exact .of_ite hsize (fun _ ↦ List.filter_sublist) ht

end Store

/-- However long the list of arcs gets, working it off only takes colours away. -/
theorem Propagation.below_of_drain {g : Graph} {pending : List Arc} {s : Store}
    {k : Propagation.Statistics} {o : Outcome} (h : drain g pending s k = .ok o) :
    o.store.Below s := by
  induction pending, s, k using drain.induct with
  | case1 s k =>
    rw [drain] at h
    exact Except.ok.inj h ▸ .refl s
  | case2 s k a rest e he =>
    rw [drain_of_revise_error he rest k] at h
    cases h
  | case3 s k a rest t hrevise ih =>
    rw [drain_of_revise_zero hrevise] at h
    exact ih h
  | case4 s k a rest n t hrevise k' ih =>
    rw [drain_of_revise_pos hrevise] at h
    obtain ⟨empty, -, h⟩ := bind_eq_ok_iff.1 h
    cases empty with
    | true => exact Except.ok.inj h ▸ Store.below_of_revise hrevise
    | false =>
      obtain ⟨row, -, h⟩ := bind_eq_ok_iff.1 h
      exact (ih row h).trans (Store.below_of_revise hrevise)

/-- **A propagation only takes colours away**, in whatever graph and however it ends. -/
theorem below_of_propagate {g : Graph} {s : Store} {k : Propagation.Statistics}
    {o : Propagation.Outcome} (h : propagate g s k = .ok o) : o.store.Below s :=
  Propagation.below_of_drain h

namespace Store

variable {s t : Store} {a : Arc} {c : Colour} {n k : Nat}

/-! ### Revising where no domain has a repetition -/

/-- If the support has a single colour and the target has it too, that colour is taken away. -/
theorem exists_revise_eq_ok_one (hs : ∀ x, (s.coloursAt x).Nodup) (htarget : a.target < s.size)
    (hsupport : a.support < s.size) (honly : s.coloursAt a.support = [c])
    (hc : c ∈ s.coloursAt a.target) :
    ∃ t, s.revise a = .ok (1, t) ∧ t.size = s.size ∧
      t.coloursAt a.target = (s.coloursAt a.target).filter (· != c) ∧
      ∀ z, z ≠ a.target → t.coloursAt z = s.coloursAt z := by
  obtain ⟨m, t, hrevise⟩ := exists_revise_eq_ok htarget hsupport
  obtain ⟨hsize, hm, ht⟩ := coloursAt_of_revise_eq_ok hrevise
  have hunsupported : s.only a.support = (· == c) := by
    funext b
    rw [Bool.eq_iff_iff, only_iff_of_nodup (hs a.support), honly, beq_iff_eq, List.singleton_inj,
      eq_comm]
  have hone : m = 1 := by
    rw [hm, hunsupported, ← List.countP_eq_length_filter]
    exact List.count_eq_one_of_mem (hs a.target) hc
  rw [hunsupported] at ht
  exact ⟨t, hone ▸ hrevise, hsize, (ht a.target).trans (if_pos rfl),
    fun z hz ↦ (ht z).trans (if_neg hz)⟩

/-- Otherwise nothing is. -/
theorem revise_eq_ok_zero (hs : ∀ x, (s.coloursAt x).Nodup) (htarget : a.target < s.size)
    (hsupport : a.support < s.size)
    (hnone : ∀ c, s.coloursAt a.support = [c] → c ∉ s.coloursAt a.target) :
    s.revise a = .ok (0, s) := by
  obtain ⟨m, t, hrevise⟩ := exists_revise_eq_ok htarget hsupport
  have hgone : (s.coloursAt a.target).filter (s.only a.support) = [] :=
    List.filter_eq_nil_iff.2 fun c hc honly ↦
      hnone c ((only_iff_of_nodup (hs a.support)).1 honly) hc
  obtain rfl : m = 0 := by
    rw [(coloursAt_of_revise_eq_ok hrevise).2.1, hgone]
    rfl
  rw [hrevise, eq_of_revise_eq_ok_zero hrevise]

/-! ### Stores that arise by calls -/

/-- The stores to which calls lead that change domains, one after another, if each of `n` variables
has the whole palette of size `k` at first. -/
inductive Arises (n k : Nat) : Store → Prop where
  /-- Nothing has been done yet. -/
  | full : Arises n k (.full n k)
  /-- A colour is taken away. -/
  | remove {s t : Store} {x : Variable} {c : Colour} {b : Bool} (earlier : Arises n k s)
      (removed : s.remove x c = .ok (b, t)) : Arises n k t
  /-- A variable is narrowed to a colour. -/
  | narrow {s t : Store} {x : Variable} {c : Colour} {b : Bool} (earlier : Arises n k s)
      (narrowed : s.narrow x c = .ok (b, t)) : Arises n k t
  /-- The store is propagated in some graph, with whatever has been counted before. A domain may
  have been emptied in the end. -/
  | propagate {s : Store} {g : Graph} {c : Propagation.Statistics} {o : Propagation.Outcome}
      (earlier : Arises n k s) (propagated : Colouring.propagate g s c = .ok o) :
      Arises n k o.store

namespace Arises

/-- **Whatever is done to a store, it has what is left of the whole palette.** -/
theorem below_full (h : Arises n k s) : s.Below (.full n k) := by
  induction h with
  | full => exact .refl _
  | remove _ removed ih => exact (below_of_remove removed).trans ih
  | narrow _ narrowed ih => exact (below_of_narrow narrowed).trans ih
  | propagate _ propagated ih => exact (below_of_propagate propagated).trans ih

theorem size_eq (h : Arises n k s) : s.size = n := h.below_full.size_eq.trans (size_full n k)

theorem ascending (h : Arises n k s) : s.Ascending :=
  (ascending_full n k).of_sublist h.below_full.sublist

theorem nodup (h : Arises n k s) (x : Variable) : (s.coloursAt x).Nodup :=
  (h.ascending x).imp fun hlt ↦ hlt.ne

/-- Only colours of the palette are left. -/
theorem mem_palette (h : Arises n k s) {x : Variable} (hc : c ∈ s.coloursAt x) :
    1 ≤ c ∧ c ≤ k := by
  have hx : x < n := h.size_eq ▸ lt_size_of_coloursAt_ne_nil (List.ne_nil_of_mem hc)
  have hfull := (h.below_full.sublist x).subset hc
  rw [coloursAt_full k hx, List.mem_range'_1] at hfull
  exact ⟨hfull.1, Nat.lt_one_add_iff.1 hfull.2⟩

/-- **Domains stay strictly ascending, and a revision takes at most one colour away.** Whatever
sequence of calls has led to a store, each of its domains is a strictly ascending list of colours of
the palette. Revising an arc, which may join a variable to itself, takes away just the colour of the
support, if that is the only one and the target has it, and changes nothing otherwise. -/
theorem ascending_and_revise (n k : Nat) (s : Store) (h : Arises n k s) :
    s.size = n ∧
      (∀ x < n, (s.coloursAt x).Pairwise (· < ·) ∧ ∀ c ∈ s.coloursAt x, 1 ≤ c ∧ c ≤ k) ∧
      ∀ a : Arc, a.target < n → a.support < n →
        (∀ c, s.coloursAt a.support = [c] → c ∈ s.coloursAt a.target →
          ∃ t, s.revise a = .ok (1, t) ∧ t.size = n ∧
            t.coloursAt a.target = (s.coloursAt a.target).filter (· != c) ∧
            ∀ z, z ≠ a.target → t.coloursAt z = s.coloursAt z) ∧
        ((∀ c, s.coloursAt a.support = [c] → c ∉ s.coloursAt a.target) →
          s.revise a = .ok (0, s)) := by
  refine ⟨h.size_eq, fun x _ ↦ ⟨h.ascending x, fun c hc ↦ h.mem_palette hc⟩,
    fun a htarget hsupport ↦ ⟨fun c honly hc ↦ ?_, fun hnone ↦ ?_⟩⟩
  · rw [← h.size_eq] at htarget hsupport ⊢
    exact exists_revise_eq_ok_one h.nodup htarget hsupport honly hc
  · rw [← h.size_eq] at htarget hsupport
    exact revise_eq_ok_zero h.nodup htarget hsupport hnone

/-- Of three variables with three colours the first is narrowed to `3`, the second loses `1`, and a
propagation along the edge between them leaves it `2` only. A revision of the third because of the
second then takes `2` away, and one of the first takes nothing. -/
theorem ascending_and_revise_narrowed :
    ∃ s, Arises 3 3 s ∧ s.coloursAt 2 = [1, 2, 3] ∧ s.revise ⟨0, 1⟩ = .ok (0, s) ∧
      ∃ t, s.revise ⟨2, 1⟩ = .ok (1, t) ∧ t.coloursAt 2 = [1, 3] := by
  have hnarrow :
      (Store.full 3 3).narrow 0 3 = .ok (true, ⟨.ofList [⟨[3]⟩, .full 3, .full 3]⟩) := rfl
  have hremove : (⟨.ofList [⟨[3]⟩, .full 3, .full 3]⟩ : Store).remove 1 1 =
      .ok (true, ⟨.ofList [⟨[3]⟩, ⟨[2, 3]⟩, .full 3]⟩) := rfl
  have hpropagate : Colouring.propagate (.declared [.edge 1 2])
      ⟨.ofList [⟨[3]⟩, ⟨[2, 3]⟩, .full 3]⟩ {} =
      .ok ⟨⟨.ofList [⟨[3]⟩, ⟨[2]⟩, .full 3]⟩, none, ⟨1, 0, 2, 1, 1⟩⟩ := by
    cbv
  have harises : Arises 3 3 ⟨.ofList [⟨[3]⟩, ⟨[2]⟩, .full 3]⟩ :=
    ((Arises.full.narrow hnarrow).remove hremove).propagate hpropagate
  obtain ⟨-, -, hrevise⟩ := ascending_and_revise 3 3 _ harises
  obtain ⟨t, ht, -, hcolours, -⟩ := (hrevise ⟨2, 1⟩ (by decide) (by decide)).1 2 rfl (by decide)
  refine ⟨_, harises, rfl, (hrevise ⟨0, 1⟩ (by decide) (by decide)).2 fun c hc ↦ ?_, t, ht,
    hcolours⟩
  obtain rfl : 2 = c := (List.cons.inj hc).1
  decide

end Arises

end Store

end GraphSearch.Colouring
