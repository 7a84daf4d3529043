/-!
# Strictly ascending lists

A set that is kept as a strictly ascending list has one form only, whatever the order in which its
members arrived and however often each of them did. `insert` keeps such a list ascending; it is
given the order as a test `before`, so that it serves for numbers and for pairs of numbers alike.

`mem_insert` and `pairwise_insert` say what `insert` does, and `eq_of_mem_iff` says that the members
determine the list. The first needs that two elements of which neither stands before the other are
equal, the second that the order is transitive, the third that nothing stands before itself.
-/

namespace GraphSearch.Ascending

universe u

variable {α : Type u}

/-- The list with `a` put in its place, unless it is there already. -/
def insert (before : α → α → Bool) (a : α) : List α → List α
  | [] => [a]
  | b :: l =>
    if before a b then a :: b :: l
    else if before b a then b :: insert before a l
    else b :: l

variable {before : α → α → Bool} {a b : α} {l m : List α}

theorem mem_insert (connected : ∀ x y, before x y = false → before y x = false → x = y) :
    b ∈ insert before a l ↔ b = a ∨ b ∈ l := by
  induction l with
  | nil => simp [insert]
  | cons c l ih =>
    unfold insert
    split
    · simp
    · split
      · rw [List.mem_cons, ih, List.mem_cons]
        grind
      · have hac : a = c := connected a c (by simp_all) (by simp_all)
        simp [hac]

theorem pairwise_insert (connected : ∀ x y, before x y = false → before y x = false → x = y)
    (transitive : ∀ x y z, before x y = true → before y z = true → before x z = true)
    (h : l.Pairwise (before · ·)) : (insert before a l).Pairwise (before · ·) := by
  induction l with
  | nil => simp [insert]
  | cons c l ih =>
    obtain ⟨hc, hl⟩ := List.pairwise_cons.1 h
    unfold insert
    split
    · rename_i hac
      refine List.pairwise_cons.2 ⟨fun d hd ↦ ?_, h⟩
      rcases List.mem_cons.1 hd with rfl | hd
      · exact hac
      · exact transitive _ _ _ hac (hc d hd)
    · split
      · rename_i hca
        refine List.pairwise_cons.2 ⟨fun d hd ↦ ?_, ih hl⟩
        rcases (mem_insert connected).1 hd with rfl | hd
        · exact hca
        · exact hc d hd
      · exact h

/-- Two strictly ascending lists with the same members are the same list. -/
theorem eq_of_mem_iff (irreflexive : ∀ x, before x x = false)
    (transitive : ∀ x y z, before x y = true → before y z = true → before x z = true)
    (hl : l.Pairwise (before · ·)) (hm : m.Pairwise (before · ·)) (h : ∀ x, x ∈ l ↔ x ∈ m) :
    l = m := by
  induction l generalizing m with
  | nil =>
    cases m with
    | nil => rfl
    | cons b m => exact absurd ((h b).2 (List.mem_cons_self ..)) (by simp)
  | cons a l ih =>
    cases m with
    | nil => exact absurd ((h a).1 (List.mem_cons_self ..)) (by simp)
    | cons b m =>
      obtain ⟨ha, hl'⟩ := List.pairwise_cons.1 hl
      obtain ⟨hb, hm'⟩ := List.pairwise_cons.1 hm
      -- The heads agree: otherwise each of the two stands before the other.
      have hab : a = b := by
        rcases List.mem_cons.1 ((h a).1 (List.mem_cons_self ..)) with rfl | ham
        · rfl
        rcases List.mem_cons.1 ((h b).2 (List.mem_cons_self ..)) with rfl | hbl
        · rfl
        have := transitive _ _ _ (ha b hbl) (hb a ham)
        simp [irreflexive] at this
      subst hab
      congr 1
      refine ih hl' hm' fun x ↦ ⟨fun hx ↦ ?_, fun hx ↦ ?_⟩
      · rcases List.mem_cons.1 ((h x).1 (List.mem_cons_of_mem _ hx)) with rfl | hxm
        · exact absurd (ha x hx) (by simp [irreflexive])
        · exact hxm
      · rcases List.mem_cons.1 ((h x).2 (List.mem_cons_of_mem _ hx)) with rfl | hxl
        · exact absurd (hb x hx) (by simp [irreflexive])
        · exact hxl

end GraphSearch.Ascending
