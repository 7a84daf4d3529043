import GraphSearch.Colouring.ArcConsistency
import GraphSearch.Proofs.Colouring.DeclaredGraph
import Mathlib.Data.List.Nodup

/-!
# What pruning does to the colours that are left

A store is read through `Store.coloursAt`, the colours left for a variable in their order, and
through `Store.only`, which says that a single colour is left. Every operation on stores is one
equation for `coloursAt`: narrowing a variable (`coloursAt_of_narrow_eq_ok`) and revising an arc
(`coloursAt_of_revise_eq_ok`) keep the colours of one variable that pass a test, in their order,
taking a colour away (`coloursAt_of_remove_eq_ok`) strikes its first entry, and none of them touches
another variable.

Taking the first of each unsupported colour away, one after another, takes exactly the unsupported
colours away, however often a colour stands in the domain (`colours_eraseAll_unsupported`). So
nothing here asks that the colours of a domain differ from each other.
-/

namespace GraphSearch.Colouring

namespace Domain

/-- Taking away what passes a test, entry by entry, leaves what does not. -/
theorem diff_filter_eq_filter_not (p : Colour → Bool) (l : List Colour) :
    l.diff (l.filter p) = l.filter fun c ↦ !p c := by
  induction l with
  | nil => rfl
  | cons c l ih =>
    cases hc : p c with
    | true => rw [List.filter_cons_of_pos hc, List.diff_cons, List.erase_cons_head, ih,
        List.filter_cons_of_neg (by simp [hc])]
    | false =>
      have hmem : c ∉ l.filter p := fun h ↦ by simp [hc] at h
      rw [List.filter_cons_of_neg (by simp [hc]), List.cons_diff_of_not_mem hmem, ih,
        List.filter_cons_of_pos (by simp [hc])]

theorem colours_eraseAll (d : Domain) (cs : List Colour) :
    (d.eraseAll cs).colours = d.colours.diff cs := by
  induction cs generalizing d with
  | nil => rfl
  | cons c cs ih =>
    show ((d.erase c).eraseAll cs).colours = _
    rw [ih, List.diff_cons]
    rfl

theorem colours_eraseAll_unsupported (d support : Domain) :
    (d.eraseAll (d.unsupported support)).colours = d.colours.filter fun c ↦ !support.isOnly c := by
  rw [colours_eraseAll]
  exact diff_filter_eq_filter_not _ _

/-- `c` is the only colour left exactly if it is left and no other is. -/
theorem isOnly_iff {d : Domain} {c : Colour} :
    d.isOnly c = true ↔ ∀ c', c' ∈ d.colours ↔ c' = c := by
  rw [isOnly, isEmpty, Bool.and_eq_true, Bool.not_eq_true', List.isEmpty_eq_false_iff,
    List.all_eq_true]
  simp only [beq_iff_eq]
  constructor
  · rintro ⟨hne, hall⟩ c'
    refine ⟨hall c', ?_⟩
    rintro rfl
    obtain ⟨b, hb⟩ := List.exists_mem_of_ne_nil _ hne
    exact hall b hb ▸ hb
  · intro h
    exact ⟨List.ne_nil_of_mem ((h c).2 rfl), fun c' ↦ (h c').1⟩

end Domain

namespace Store

variable {s t : Store} {x y : Variable} {c : Colour}

/-- The colours left for a variable in their order, none past the end. -/
def coloursAt (s : Store) (x : Variable) : List Colour := (s.domains.getD x {}).colours

/-- Whether `c` is the only colour left for a variable. -/
def only (s : Store) (x : Variable) (c : Colour) : Bool := (s.domains.getD x {}).isOnly c

theorem only_iff : s.only x c = true ↔ ∀ c', c' ∈ s.coloursAt x ↔ c' = c := Domain.isOnly_iff

theorem mem_coloursAt_of_only (h : s.only x c = true) : c ∈ s.coloursAt x :=
  (only_iff.1 h c).2 rfl

theorem coloursAt_of_size_le (h : s.size ≤ x) : s.coloursAt x = [] := by
  rw [coloursAt, Table.getD_of_size_le h]

theorem domainOf_eq_ok_iff {d : Domain} :
    s.domainOf x = .ok d ↔ x < s.size ∧ d = ⟨s.coloursAt x⟩ :=
  Table.get_eq_ok_iff_getD ({} : Domain)

theorem domainOf_eq_ok (h : x < s.size) : s.domainOf x = .ok ⟨s.coloursAt x⟩ :=
  domainOf_eq_ok_iff.2 ⟨h, rfl⟩

theorem isEmptyAt_eq_ok_iff {b : Bool} :
    s.isEmptyAt x = .ok b ↔ x < s.size ∧ b = (s.coloursAt x).isEmpty := by
  rw [isEmptyAt, map_eq_ok_iff]
  simp only [domainOf_eq_ok_iff]
  constructor
  · rintro ⟨_, ⟨hx, rfl⟩, rfl⟩
    exact ⟨hx, rfl⟩
  · rintro ⟨hx, rfl⟩
    exact ⟨_, ⟨hx, rfl⟩, rfl⟩

theorem isEmptyAt_eq_ok (h : x < s.size) : s.isEmptyAt x = .ok (s.coloursAt x).isEmpty :=
  isEmptyAt_eq_ok_iff.2 ⟨h, rfl⟩

theorem isEmptyAt_eq_ok_true_iff (h : x < s.size) :
    s.isEmptyAt x = .ok true ↔ s.coloursAt x = [] := by
  rw [isEmptyAt_eq_ok h, Except.ok.injEq, List.isEmpty_iff]

theorem isEmptyAt_eq_ok_false_iff (h : x < s.size) :
    s.isEmptyAt x = .ok false ↔ s.coloursAt x ≠ [] := by
  rw [isEmptyAt_eq_ok h, Except.ok.injEq, List.isEmpty_eq_false_iff]

theorem lt_size_of_coloursAt_ne_nil (h : s.coloursAt x ≠ []) : x < s.size :=
  not_le.1 fun hx ↦ h (coloursAt_of_size_le hx)

/-- Stores of one size with the same colours left are the same store. -/
theorem eq_of_coloursAt_eq (hsize : t.size = s.size) (h : ∀ x, t.coloursAt x = s.coloursAt x) :
    t = s := by
  have hdomains : t.domains = s.domains :=
    Table.eq_of_getD_eq {} hsize fun x _ ↦ congrArg Domain.mk (h x)
  cases t
  cases s
  exact congrArg Store.mk hdomains

@[simp] theorem size_full (n k : Nat) : (full n k).size = n := Table.size_filled ..

theorem coloursAt_full {n : Nat} (k : Nat) (h : x < n) :
    (full n k).coloursAt x = List.range' 1 k := by
  rw [coloursAt, full, Table.getD, Table.toList_filled, List.getElem?_replicate_of_lt h]
  rfl

/-- The colours of every domain stand in ascending order, each of them once. -/
def Ascending (s : Store) : Prop := ∀ x, (s.coloursAt x).Pairwise (· < ·)

theorem ascending_full (n k : Nat) : (full n k).Ascending := by
  intro x
  rcases Nat.lt_or_ge x n with hx | hx
  · rw [coloursAt_full k hx]
    exact List.pairwise_lt_range'
  · rw [coloursAt_of_size_le (by rwa [size_full])]
    exact .nil

theorem Ascending.of_sublist (hs : s.Ascending)
    (h : ∀ x, (t.coloursAt x).Sublist (s.coloursAt x)) : t.Ascending :=
  fun x ↦ (hs x).sublist (h x)

/-! ### Writing one domain -/

/-- A store that differs from another in the domain of one variable. -/
theorem coloursAt_of_set_eq_ok {d : Domain} (h : s.domains.set x d = .ok t.domains)
    (z : Variable) : t.coloursAt z = if z = x then d.colours else s.coloursAt z := by
  rw [coloursAt, Table.getD_of_set_eq_ok h, apply_ite Domain.colours, coloursAt]

/-- Narrowing succeeds at every variable of the store. -/
theorem exists_narrow_eq_ok (h : x < s.size) (c : Colour) : ∃ b t, s.narrow x c = .ok (b, t) := by
  obtain ⟨domains, hset⟩ := Table.exists_set_eq_ok h (Domain.retain ⟨s.coloursAt x⟩ c)
  rw [narrow, domainOf_eq_ok h, ok_bind, hset]
  exact ⟨_, _, rfl⟩

/-- A call that reads the domain of a variable and writes what becomes of it changes that domain
only. -/
theorem coloursAt_of_change_eq_ok {f : Domain → Domain} {test : Domain → Bool} {b : Bool}
    (h : (do
      let d ← s.domainOf x
      let domains ← s.domains.set x (f d)
      return (test d, (⟨domains⟩ : Store))) = .ok (b, t)) :
    t.size = s.size ∧
      ∀ z, t.coloursAt z = if z = x then (f ⟨s.coloursAt z⟩).colours else s.coloursAt z := by
  obtain ⟨d, hd, h⟩ := bind_eq_ok_iff.1 h
  obtain ⟨domains, hset, h⟩ := bind_eq_ok_iff.1 h
  obtain ⟨-, rfl⟩ := domainOf_eq_ok_iff.1 hd
  obtain rfl : (⟨domains⟩ : Store) = t := congrArg Prod.snd (Except.ok.inj h)
  refine ⟨Table.size_of_set_eq_ok hset, ?_⟩
  intro z
  rw [coloursAt_of_set_eq_ok hset]
  split
  · rename_i hz
    rw [hz]
  · rfl

/-- Narrowing leaves a variable the colour `c`, if it had it, and no other. -/
theorem coloursAt_of_narrow_eq_ok {b : Bool} (h : s.narrow x c = .ok (b, t)) :
    t.size = s.size ∧
      ∀ z, t.coloursAt z = if z = x then (s.coloursAt z).filter (· == c) else s.coloursAt z :=
  coloursAt_of_change_eq_ok h

/-- Taking a colour away takes its first entry, and leaves the others in their order. -/
theorem coloursAt_of_remove_eq_ok {b : Bool} (h : s.remove x c = .ok (b, t)) :
    t.size = s.size ∧
      ∀ z, t.coloursAt z = if z = x then (s.coloursAt z).erase c else s.coloursAt z :=
  coloursAt_of_change_eq_ok h

/-! ### Revising one arc -/

/-- The colours that revising an arc leaves for its target. -/
theorem exists_revise_eq_ok {a : Arc} (htarget : a.target < s.size)
    (hsupport : a.support < s.size) : ∃ n t, s.revise a = .ok (n, t) := by
  rw [revise, domainOf_eq_ok hsupport, ok_bind, domainOf_eq_ok htarget, ok_bind]
  dsimp only
  split
  · exact ⟨_, _, rfl⟩
  · obtain ⟨domains, hset⟩ := Table.exists_set_eq_ok htarget
      (Domain.eraseAll ⟨s.coloursAt a.target⟩
        (Domain.unsupported ⟨s.coloursAt a.target⟩ ⟨s.coloursAt a.support⟩))
    exact ⟨_, _, by rw [hset]; rfl⟩

/-- Revising an arc takes from its target the colour that is the only one of its support, and counts
how many entries that were. -/
theorem coloursAt_of_revise_eq_ok {a : Arc} {n : Nat} (h : s.revise a = .ok (n, t)) :
    t.size = s.size ∧ n = ((s.coloursAt a.target).filter (s.only a.support)).length ∧
      ∀ z, t.coloursAt z = if z = a.target then
        (s.coloursAt z).filter fun c ↦ !s.only a.support c else s.coloursAt z := by
  obtain ⟨support, hsupport, h⟩ := bind_eq_ok_iff.1 h
  obtain ⟨target, htarget, h⟩ := bind_eq_ok_iff.1 h
  obtain ⟨-, rfl⟩ := domainOf_eq_ok_iff.1 hsupport
  obtain ⟨-, rfl⟩ := domainOf_eq_ok_iff.1 htarget
  dsimp only at h
  split at h
  · rename_i hnone
    obtain ⟨rfl, rfl⟩ := Prod.mk.inj (Except.ok.inj h)
    have hgone : (s.coloursAt a.target).filter (s.only a.support) = [] := List.isEmpty_iff.1 hnone
    refine ⟨rfl, by rw [hgone]; rfl, ?_⟩
    -- Nothing is unsupported, so the test keeps everything.
    intro z
    split
    · rename_i hz
      subst hz
      refine (List.filter_eq_self.2 fun c hc ↦ ?_).symm
      simpa using List.filter_eq_nil_iff.1 hgone c hc
    · rfl
  · obtain ⟨domains, hset, h⟩ := bind_eq_ok_iff.1 h
    obtain ⟨rfl, rfl⟩ := Prod.mk.inj (Except.ok.inj h)
    refine ⟨Table.size_of_set_eq_ok hset, rfl, ?_⟩
    intro z
    rw [coloursAt_of_set_eq_ok hset, Domain.colours_eraseAll_unsupported]
    split
    · rename_i hz
      rw [hz]
      rfl
    · rfl

/-- Revising counts nothing exactly if it changes nothing. -/
theorem eq_of_revise_eq_ok_zero {a : Arc} (h : s.revise a = .ok (0, t)) : t = s := by
  obtain ⟨hsize, hn, ht⟩ := coloursAt_of_revise_eq_ok h
  refine eq_of_coloursAt_eq hsize fun z ↦ ?_
  rw [ht]
  split
  · rename_i hz
    subst hz
    have hgone := List.eq_nil_of_length_eq_zero hn.symm
    refine List.filter_eq_self.2 fun c hc ↦ ?_
    simpa using List.filter_eq_nil_iff.1 hgone c hc
  · rfl

end Store

end GraphSearch.Colouring
