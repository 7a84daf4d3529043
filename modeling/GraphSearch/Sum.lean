/-!
# Sums over lists

The sum of a measure over the entries of a list. It falls if the measure falls at one entry and
rises at none (`sumOf_lt_sumOf`), by as much as it falls there (`sumOf_add_le_sumOf`), and if an
entry is replaced by one of a smaller measure (`sumOf_set_lt`). Pairs of entries of two lists can be
counted from either side (`sumOf_countP_comm`).
-/

namespace GraphSearch

universe u v

variable {α : Type u} {β : Type v}

/-- The sum of `f` over the entries of a list. -/
def sumOf (f : α → Nat) : List α → Nat
  | [] => 0
  | a :: l => f a + sumOf f l

theorem sumOf_le_sumOf {f g : α → Nat} {l : List α} (h : ∀ x ∈ l, f x ≤ g x) :
    sumOf f l ≤ sumOf g l := by
  induction l with
  | nil => exact Nat.le_refl _
  | cons a l ih =>
    exact Nat.add_le_add (h a (List.mem_cons_self ..))
      (ih fun x hx ↦ h x (List.mem_cons_of_mem _ hx))

theorem sumOf_lt_sumOf {f g : α → Nat} {l : List α} {a : α} (h : ∀ x ∈ l, f x ≤ g x) (ha : a ∈ l)
    (hlt : f a < g a) : sumOf f l < sumOf g l := by
  induction l with
  | nil => exact absurd ha List.not_mem_nil
  | cons b l ih =>
    have hl : ∀ x ∈ l, f x ≤ g x := fun x hx ↦ h x (List.mem_cons_of_mem _ hx)
    rcases List.mem_cons.1 ha with rfl | hal
    · exact Nat.add_lt_add_of_lt_of_le hlt (sumOf_le_sumOf hl)
    · exact Nat.add_lt_add_of_le_of_lt (h b (List.mem_cons_self ..)) (ih hl hal)

theorem sumOf_add_le_sumOf {f g : α → Nat} {l : List α} {a : α} {n : Nat}
    (h : ∀ x ∈ l, f x ≤ g x) (ha : a ∈ l) (hle : f a + n ≤ g a) : sumOf f l + n ≤ sumOf g l := by
  induction l with
  | nil => exact absurd ha List.not_mem_nil
  | cons b l ih =>
    have hl : ∀ x ∈ l, f x ≤ g x := fun x hx ↦ h x (List.mem_cons_of_mem _ hx)
    have hb := h b (List.mem_cons_self ..)
    show f b + sumOf f l + n ≤ g b + sumOf g l
    rcases List.mem_cons.1 ha with rfl | hal
    · have := sumOf_le_sumOf hl
      omega
    · have := ih hl hal
      omega

theorem sumOf_set_lt {f : α → Nat} {l : List α} {k : Nat} {a b : α} (ha : l[k]? = some a)
    (hlt : f b < f a) : sumOf f (l.set k b) < sumOf f l := by
  induction l generalizing k with
  | nil => simp at ha
  | cons c l ih =>
    cases k with
    | zero =>
      obtain rfl : c = a := by simpa using ha
      exact Nat.add_lt_add_right hlt _
    | succ k => exact Nat.add_lt_add_left (ih (by simpa using ha)) _

theorem sumOf_add (f g : α → Nat) (l : List α) :
    sumOf (fun a ↦ f a + g a) l = sumOf f l + sumOf g l := by
  induction l with
  | nil => rfl
  | cons a l ih =>
    show f a + g a + sumOf (fun a ↦ f a + g a) l = f a + sumOf f l + (g a + sumOf g l)
    omega

theorem sumOf_map (f : β → Nat) (g : α → β) (l : List α) :
    sumOf f (l.map g) = sumOf (fun a ↦ f (g a)) l := by
  induction l with
  | nil => rfl
  | cons a l ih => exact congrArg (f (g a) + ·) ih

theorem sumOf_congr {f g : α → Nat} {l : List α} (h : ∀ a ∈ l, f a = g a) :
    sumOf f l = sumOf g l :=
  Nat.le_antisymm (sumOf_le_sumOf fun a ha ↦ Nat.le_of_eq (h a ha))
    (sumOf_le_sumOf fun a ha ↦ Nat.le_of_eq (h a ha).symm)

theorem sumOf_const (k : Nat) (l : List α) : sumOf (fun _ ↦ k) l = k * l.length := by
  induction l with
  | nil => rfl
  | cons a l ih =>
    show k + sumOf (fun _ ↦ k) l = k * (l.length + 1)
    rw [ih, Nat.mul_succ, Nat.add_comm]

theorem length_flatMap_eq_sumOf (f : α → List β) (l : List α) :
    (l.flatMap f).length = sumOf (fun a ↦ (f a).length) l := by
  induction l with
  | nil => rfl
  | cons a l ih => rw [List.flatMap_cons, List.length_append, ih, sumOf]

/-- The pairs of entries that pass a test are as many counted from one side as from the other. -/
theorem sumOf_countP_comm (q : α → β → Bool) (l : List α) (m : List β) :
    sumOf (fun a ↦ m.countP (q a)) l = sumOf (fun b ↦ l.countP (q · b)) m := by
  induction l with
  | nil => exact ((sumOf_const 0 m).trans (Nat.zero_mul _)).symm
  | cons a l ih =>
    have hcons : ∀ b, (a :: l).countP (q · b) = [a].countP (q · b) + l.countP (q · b) :=
      fun b ↦ by rw [← List.countP_append, List.singleton_append]
    have hsingle : m.countP (q a) = sumOf (fun b ↦ [a].countP (q · b)) m := by
      clear hcons ih
      induction m with
      | nil => rfl
      | cons b m ihm => rw [List.countP_cons, ihm, Nat.add_comm, sumOf, List.countP_singleton]
    rw [sumOf, hsingle, ih, ← sumOf_add]
    exact congrArg (sumOf · m) (funext fun b ↦ (hcons b).symm)

end GraphSearch
