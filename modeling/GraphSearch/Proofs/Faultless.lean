import GraphSearch.Table
import Mathlib.Data.List.Basic

/-!
# Computations that meet no fault

What may end in a fault is written in `Except`, and so is every loop over it. This file takes such
computations apart: `bind_eq_ok_iff` says what a sequence of two amounts to when it succeeds, and
the loops are equal to their plain counterparts as soon as each of their steps succeeds
(`foldlM_eq_ok` and its kin). The steps are asked for at the members of the list only, since a read
is safe at the variables of a graph and not elsewhere.

A table is then read through `Table.getD`, which gives a default past its end. Reading and writing
succeed exactly within the size (`Table.get_eq_ok_iff_getD`, `Table.getD_of_set_eq_ok`), so that a
statement about entries need not speak of faults.

Where a computation may fail, `FaultsWithin` bounds the faults in which it may end. Sequences and
loops end only in the faults of their parts, and tables only in that of reading past their end.
-/

namespace GraphSearch

universe u v w

variable {ε : Type u} {α β : Type v}

@[simp] theorem ok_bind (a : α) (f : α → Except ε β) : (Except.ok a >>= f) = f a := rfl

@[simp] theorem error_bind (e : ε) (f : α → Except ε β) : (Except.error e >>= f) = .error e := rfl

@[simp] theorem pure_eq_ok (a : α) : (pure a : Except ε α) = .ok a := rfl

/-- A sequence succeeds exactly if its first part does and its second does on what the first gave.
-/
theorem bind_eq_ok_iff {x : Except ε α} {f : α → Except ε β} {b : β} :
    x >>= f = .ok b ↔ ∃ a, x = .ok a ∧ f a = .ok b := by
  cases x <;> simp

theorem map_eq_ok_iff {x : Except ε α} {f : α → β} {b : β} :
    f <$> x = .ok b ↔ ∃ a, x = .ok a ∧ f a = b := by
  cases x <;> simp

theorem map_eq_error_iff {x : Except ε α} {f : α → β} {e : ε} :
    f <$> x = .error e ↔ x = .error e := by
  cases x <;> simp

/-- What a computation goes on with matters only where it succeeds. -/
theorem bind_congr_of_ok {x : Except ε α} {f f' : α → Except ε β}
    (h : ∀ a, x = .ok a → f a = f' a) : x >>= f = x >>= f' := by
  cases x with
  | error e => rfl
  | ok a => exact h a rfl

/-! ### Loops -/

theorem foldlM_eq_ok {α : Type w} {f : β → α → Except ε β} {g : β → α → β} {l : List α}
    (h : ∀ a ∈ l, ∀ b, f b a = .ok (g b a)) (b : β) : l.foldlM f b = .ok (l.foldl g b) := by
  induction l generalizing b with
  | nil => rfl
  | cons a l ih =>
    rw [List.foldlM_cons, h a List.mem_cons_self, ok_bind, List.foldl_cons]
    exact ih (fun c hc ↦ h c (List.mem_cons_of_mem _ hc)) _

/-- A loop ends in the fault of the first step that meets one. -/
theorem foldlM_eq_error_iff {α : Type w} {f : β → α → Except ε β} {l : List α} {b : β} {e : ε} :
    l.foldlM f b = .error e ↔ ∃ before a after b', l = before ++ a :: after ∧
      before.foldlM f b = .ok b' ∧ f b' a = .error e := by
  induction l generalizing b with
  | nil =>
    constructor
    · rintro ⟨⟩
    · rintro ⟨before, a, after, _, hl, -⟩
      simp at hl
  | cons a l ih =>
    rw [List.foldlM_cons]
    constructor
    · intro h
      cases ha : f b a with
      | error e' =>
        rw [ha, error_bind] at h
        obtain rfl := Except.error.inj h
        exact ⟨[], a, l, b, rfl, rfl, ha⟩
      | ok b₁ =>
        rw [ha, ok_bind, ih] at h
        obtain ⟨before, a', after, b', rfl, hbefore, hfault⟩ := h
        refine ⟨a :: before, a', after, b', rfl, ?_, hfault⟩
        rw [List.foldlM_cons, ha]
        exact hbefore
    · rintro ⟨before, a', after, b', hl, hbefore, hfault⟩
      rcases List.cons_eq_append_iff.1 hl with ⟨rfl, hhead⟩ | ⟨before, rfl, rfl⟩
      · obtain ⟨rfl, rfl⟩ := List.cons.inj hhead
        obtain rfl := Except.ok.inj hbefore
        rw [hfault, error_bind]
      · obtain ⟨b₁, ha, hbefore⟩ := bind_eq_ok_iff.1 (List.foldlM_cons.symm.trans hbefore)
        rw [ha, ok_bind]
        exact ih.2 ⟨before, a', after, b', rfl, hbefore, hfault⟩

/-- A loop that succeeds has succeeded at every member. -/
theorem exists_eq_ok_of_foldlM_eq_ok {α : Type w} {f : β → α → Except ε β} {l : List α} {b b' : β}
    (h : l.foldlM f b = .ok b') : ∀ a ∈ l, ∃ c c', f c a = .ok c' := by
  induction l generalizing b with
  | nil => exact fun _ ha ↦ nomatch ha
  | cons a l ih =>
    obtain ⟨c, hc, h⟩ := bind_eq_ok_iff.1 (List.foldlM_cons.symm.trans h)
    exact List.forall_mem_cons.2 ⟨⟨b, c, hc⟩, ih h⟩

theorem exists_eq_ok_of_mapM_eq_ok {α : Type w} {f : α → Except ε β} {l : List α} {r : List β}
    (h : l.mapM f = .ok r) : ∀ a ∈ l, ∃ c, f a = .ok c := by
  induction l generalizing r with
  | nil => exact fun _ ha ↦ nomatch ha
  | cons a l ih =>
    obtain ⟨c, hc, h⟩ := bind_eq_ok_iff.1 (List.mapM_cons.symm.trans h)
    obtain ⟨cs, hcs, -⟩ := bind_eq_ok_iff.1 h
    exact List.forall_mem_cons.2 ⟨⟨c, hc⟩, ih hcs⟩

theorem mapM_eq_ok {α : Type w} {f : α → Except ε β} {g : α → β} {l : List α}
    (h : ∀ a ∈ l, f a = .ok (g a)) : l.mapM f = .ok (l.map g) := by
  induction l with
  | nil => rfl
  | cons a l ih =>
    rw [List.mapM_cons, h a List.mem_cons_self, ok_bind,
      ih fun c hc ↦ h c (List.mem_cons_of_mem _ hc)]
    rfl

theorem filterMapM_eq_ok {α : Type v} {f : α → Except ε (Option β)} {g : α → Option β} {l : List α}
    (h : ∀ a ∈ l, f a = .ok (g a)) : l.filterMapM f = .ok (l.filterMap g) := by
  induction l with
  | nil => rfl
  | cons a l ih =>
    rw [List.filterMapM_cons, h a List.mem_cons_self, ok_bind,
      ih fun c hc ↦ h c (List.mem_cons_of_mem _ hc), List.filterMap_cons]
    cases g a <;> rfl

theorem findM?_eq_ok {α : Type} {f : α → Except ε Bool} {g : α → Bool} {l : List α}
    (h : ∀ a ∈ l, f a = .ok (g a)) : l.findM? f = .ok (l.find? g) := by
  induction l with
  | nil => rfl
  | cons a l ih =>
    rw [List.findM?, h a List.mem_cons_self, ok_bind, List.find?_cons]
    cases g a with
    | true => rfl
    | false => exact ih fun c hc ↦ h c (List.mem_cons_of_mem _ hc)

theorem allM_eq_ok {α : Type w} {f : α → Except ε Bool} {g : α → Bool} {l : List α}
    (h : ∀ a ∈ l, f a = .ok (g a)) : l.allM f = .ok (l.all g) := by
  induction l with
  | nil => rfl
  | cons a l ih =>
    rw [List.allM_cons, h a List.mem_cons_self, ok_bind, List.all_cons]
    cases g a with
    | true => exact ih fun c hc ↦ h c (List.mem_cons_of_mem _ hc)
    | false => rfl

/-- If all members were found to pass, each of them was asked and passed. -/
theorem allM_eq_ok_true_iff {α : Type w} {f : α → Except ε Bool} {l : List α} :
    l.allM f = .ok true ↔ ∀ a ∈ l, f a = .ok true := by
  induction l with
  | nil => simp
  | cons a l ih =>
    rw [List.allM_cons, List.forall_mem_cons, ← ih]
    rcases f a with e | b
    · simp
    · cases b <;> simp

/-! ### Which faults there may be -/

/-- Whatever fault the computation ends in is one of those that `P` allows. -/
def FaultsWithin (P : ε → Prop) (m : Except ε α) : Prop := ∀ e, m = .error e → P e

namespace FaultsWithin

variable {P : ε → Prop} {m : Except ε α}

theorem ok (a : α) : FaultsWithin P (.ok a : Except ε α) := nofun

theorem error {e : ε} (h : P e) : FaultsWithin P (.error e : Except ε α) := by
  rintro _ ⟨⟩
  exact h

/-- A sequence ends only in the faults of its first part, and in those of its second part on what
the first gives. -/
theorem bind {f : α → Except ε β} (hm : FaultsWithin P m)
    (hf : ∀ a, m = .ok a → FaultsWithin P (f a)) : FaultsWithin P (m >>= f) := by
  cases m with
  | error e => exact error (hm e rfl)
  | ok a => exact hf a rfl

theorem map {f : α → β} (hm : FaultsWithin P m) : FaultsWithin P (f <$> m) := by
  cases m with
  | error e => exact error (hm e rfl)
  | ok a => exact ok (f a)

theorem allM {α : Type w} {f : α → Except ε Bool} (l : List α)
    (h : ∀ a, FaultsWithin P (f a)) : FaultsWithin P (l.allM f) := by
  induction l with
  | nil => exact ok true
  | cons a l ih =>
    rw [List.allM_cons]
    refine (h a).bind fun b _ ↦ ?_
    cases b with
    | true => exact ih
    | false => exact ok false

end FaultsWithin

/-! ### Tables -/

namespace Table

variable {α : Type u} {t s : Table α} {k : Nat} {a : α}

/-- The entry of number `k`, or `d` past the end. -/
def getD (t : Table α) (k : Nat) (d : α) : α := t.toList[k]?.getD d

theorem getD_of_size_le (h : t.size ≤ k) (d : α) : t.getD k d = d := by
  rw [getD, List.getElem?_eq_none (by simpa using h), Option.getD_none]

theorem getD_ofList (l : List α) (k : Nat) (d : α) : (ofList l).getD k d = l[k]?.getD d := by
  rw [getD, toList_ofList]

/-- Reading succeeds exactly within the size, and gives the entry. -/
theorem get_eq_ok_iff_getD (d : α) : t.get k = .ok a ↔ k < t.size ∧ a = t.getD k d := by
  rw [get_eq_ok_iff, getD]
  by_cases hk : k < t.size
  · rw [List.getElem?_eq_getElem (by simpa using hk)]
    simp [hk, eq_comm]
  · rw [List.getElem?_eq_none (by simpa using hk)]
    simp [hk]

/-- The numbers come with their entries. -/
theorem mem_pairs (d : α) : (k, a) ∈ t.pairs ↔ k < t.size ∧ a = t.getD k d := by
  rw [← get_eq_ok_iff_getD, get_eq_ok_iff, pairs, List.mem_map]
  constructor
  · rintro ⟨⟨b, j⟩, hb, hpair⟩
    obtain ⟨rfl, rfl⟩ := Prod.mk.inj hpair
    exact List.mem_zipIdx_iff_getElem?.1 hb
  · exact fun h ↦ ⟨(a, k), List.mem_zipIdx_iff_getElem?.2 h, rfl⟩

theorem size_of_set_eq_ok (h : t.set k a = .ok s) : s.size = t.size := by
  rw [← length_toList, (set_eq_ok_iff.1 h).2, List.length_set, length_toList]

/-- Writing changes the entry of its number and no other. -/
theorem getD_of_set_eq_ok (h : t.set k a = .ok s) (j : Nat) (d : α) :
    s.getD j d = if j = k then a else t.getD j d := by
  obtain ⟨hk, hs⟩ := set_eq_ok_iff.1 h
  rw [getD, hs, List.getElem?_set]
  split
  · rename_i hkj
    subst hkj
    simp [hk]
  · rename_i hkj
    rw [if_neg (Ne.symm hkj), getD]

theorem exists_set_eq_ok (h : k < t.size) (a : α) : ∃ s, t.set k a = .ok s :=
  ⟨⟨t.entries.set k a h⟩, dif_pos h⟩

theorem toList_eq_map_getD (t : Table α) (d : α) :
    t.toList = (List.range t.size).map fun k ↦ t.getD k d := by
  refine List.ext_getElem (by simp) fun k hk _ ↦ ?_
  simp [getD, List.getElem?_eq_getElem hk]

theorem faultsWithin_get {P : Fault → Prop} (h : ∀ l i, P (.indexOutOfRange l i)) (t : Table α)
    (k : Nat) : FaultsWithin P (t.get k) := by
  intro e he
  rw [(get_eq_error_iff.1 he).2]
  exact h _ _

theorem faultsWithin_set {P : Fault → Prop} (h : ∀ l i, P (.indexOutOfRange l i)) (t : Table α)
    (k : Nat) (a : α) : FaultsWithin P (t.set k a) := by
  rw [set]
  split
  · exact .ok _
  · exact .error (h _ _)

/-- Tables of one size with the same entries are the same table. -/
theorem eq_of_getD_eq (d : α) (hsize : s.size = t.size)
    (h : ∀ k < s.size, s.getD k d = t.getD k d) : s = t := by
  have hlist : s.toList = t.toList := by
    rw [toList_eq_map_getD s d, toList_eq_map_getD t d, ← hsize]
    exact List.map_congr_left fun k hk ↦ h k (List.mem_range.1 hk)
  cases s
  cases t
  simpa [toList] using hlist

end Table

end GraphSearch
