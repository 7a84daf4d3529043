import GraphSearch.Colouring.Assignment
import GraphSearch.Proofs.Colouring.DeclaredGraph
import Mathlib.Data.List.Perm.Basic
import Mathlib.Logic.Relation

/-!
# Decisions and what they leave of an assignment

An assignment is read through `Assignment.colourAt`. Its two parts agree with each other,
`Assignment.Coherent`: a variable has a colour exactly if it stands once among the decided ones. The
blank assignment is coherent and `assign` and `undo` keep it so; `Assignment.Arises` is what these
three bring about. Of a coherent assignment the decisions and the free places add up to its size
(`Coherent.count_add_free`), and it is complete exactly if every variable has a colour.

A search only ever takes a decision that no neighbour contradicts, `Assignment.Decides`, or takes
back the one it has just taken, which restores the assignment to the last detail (`undo_of_assign`).
So what a successful search has done to its assignment is a chain of such decisions, and what is to
be said of the result is what one of them keeps: colours that stand, and the colouring being proper
so far. The latter uses that neighbourhoods are symmetric, since a decision looks at the neighbours
of its own variable only.
-/

namespace GraphSearch.Colouring.Assignment

open Relation

variable {a b : Assignment} {g : Graph} {x y : Variable} {c : Colour}

/-- The colour of a variable, if it has one; none past the end. -/
def colourAt (a : Assignment) (x : Variable) : Option Colour := a.colours.getD x none

theorem colourOf_eq_ok_iff {o : Option Colour} :
    a.colourOf x = .ok o ↔ x < a.colours.size ∧ o = a.colourAt x :=
  Table.get_eq_ok_iff_getD none

theorem colourOf_eq_ok (h : x < a.colours.size) : a.colourOf x = .ok (a.colourAt x) :=
  colourOf_eq_ok_iff.2 ⟨h, rfl⟩

theorem isAssigned_eq_ok (h : x < a.colours.size) : a.isAssigned x = .ok (a.colourAt x).isSome := by
  rw [isAssigned, colourOf_eq_ok h]
  rfl

theorem lt_size_of_colourAt_eq_some (h : a.colourAt x = some c) : x < a.colours.size := by
  by_contra hx
  rw [colourAt, Table.getD_of_size_le (not_lt.1 hx)] at h
  cases h

/-- Assignments of one size with the same colours and decisions are the same assignment. -/
theorem eq_of_colourAt_eq (hsize : b.colours.size = a.colours.size)
    (h : ∀ x, b.colourAt x = a.colourAt x) (hdecided : b.decided = a.decided) : b = a := by
  have hcolours : b.colours = a.colours := Table.eq_of_getD_eq none hsize fun x _ ↦ h x
  cases a
  cases b
  exact congrArg₂ Assignment.mk hcolours hdecided

@[simp] theorem colourAt_blank (n : Nat) (x : Variable) : (blank n).colourAt x = none := by
  rw [colourAt, blank, Table.getD, Table.toList_filled, List.getElem?_replicate]
  split <;> rfl

/-! ### Taking a decision and taking it back -/

/-- Deciding succeeds exactly at a variable that has no colour. -/
theorem exists_assign_eq_ok (hx : x < a.colours.size) (h : a.colourAt x = none) (c : Colour) :
    ∃ b, a.assign x c = .ok b := by
  obtain ⟨colours, hset⟩ := Table.exists_set_eq_ok hx (some c)
  rw [assign, isAssigned_eq_ok hx, ok_bind, h, hset]
  exact ⟨_, rfl⟩

/-- What a decision changes: one colour, and the list of the decided variables. -/
theorem of_assign_eq_ok (h : a.assign x c = .ok b) :
    x < a.colours.size ∧ a.colourAt x = none ∧ b.colours.size = a.colours.size ∧
      b.decided = x :: a.decided ∧ ∀ y, b.colourAt y = if y = x then some c else a.colourAt y := by
  obtain ⟨assigned, hassigned, h⟩ := bind_eq_ok_iff.1 h
  obtain ⟨o, ho, rfl⟩ := map_eq_ok_iff.1 hassigned
  obtain ⟨hx, rfl⟩ := colourOf_eq_ok_iff.1 ho
  cases hnone : a.colourAt x with
  | some c' =>
    rw [hnone] at h
    cases h
  | none =>
    rw [hnone] at h
    obtain ⟨colours, hset, h⟩ := bind_eq_ok_iff.1 h
    obtain rfl : (⟨colours, x :: a.decided⟩ : Assignment) = b := Except.ok.inj h
    exact ⟨hx, rfl, Table.size_of_set_eq_ok hset, rfl, fun y ↦ Table.getD_of_set_eq_ok hset y none⟩

/-- **Taking a decision back restores the assignment** and gives back the decision. -/
theorem undo_of_assign (h : a.assign x c = .ok b) : b.undo = .ok (some (x, c), a) := by
  obtain ⟨hx, hnone, hsize, hdecided, hcolour⟩ := of_assign_eq_ok h
  have hxb : x < b.colours.size := hsize ▸ hx
  obtain ⟨colours, hset⟩ := Table.exists_set_eq_ok hxb (none : Option Colour)
  have hback : (⟨colours, a.decided⟩ : Assignment) = a := by
    refine eq_of_colourAt_eq ((Table.size_of_set_eq_ok hset).trans hsize) ?_ rfl
    intro y
    rw [colourAt, Table.getD_of_set_eq_ok hset]
    split
    · rename_i hy
      rw [hy, hnone]
    · rename_i hy
      exact (hcolour y).trans (if_neg hy)
  rw [undo, hdecided]
  dsimp only
  rw [colourOf_eq_ok hxb, ok_bind, hset, ok_bind, hback, hcolour, if_pos rfl]
  rfl

/-! ### Coherence -/

/-- A variable has a colour exactly if it stands once among the decided ones. -/
structure Coherent (a : Assignment) : Prop where
  /-- No variable is decided twice. -/
  nodup : a.decided.Nodup
  /-- The decided variables are those that have a colour. -/
  mem_decided : ∀ x, x ∈ a.decided ↔ (a.colourAt x).isSome = true

/-- The assignments of `n` variables that deciding and taking back bring about. -/
inductive Arises (n : Nat) : Assignment → Prop where
  /-- Nothing is decided. -/
  | blank : Arises n (.blank n)
  /-- A decision is taken. -/
  | assign {a b : Assignment} {x : Variable} {c : Colour} (earlier : Arises n a)
      (decided : a.assign x c = .ok b) : Arises n b
  /-- The most recent decision is taken back. -/
  | undo {a b : Assignment} {o : Option (Variable × Colour)} (earlier : Arises n a)
      (undone : a.undo = .ok (o, b)) : Arises n b

theorem coherent_blank (n : Nat) : (blank n).Coherent where
  nodup := List.nodup_nil
  mem_decided x := by
    rw [colourAt_blank]
    simp [blank]

theorem Coherent.assign (ha : a.Coherent) (h : a.assign x c = .ok b) : b.Coherent := by
  obtain ⟨-, hnone, -, hdecided, hcolour⟩ := of_assign_eq_ok h
  have hx : x ∉ a.decided := fun hmem ↦ by
    have := (ha.mem_decided x).1 hmem
    rw [hnone] at this
    exact Bool.false_ne_true this
  refine ⟨hdecided ▸ List.nodup_cons.2 ⟨hx, ha.nodup⟩, ?_⟩
  intro y
  rw [hdecided, List.mem_cons, hcolour, ha.mem_decided]
  split <;> simp_all

/-- What taking back changes: the most recent variable has no colour any more. -/
theorem of_undo_eq_ok {earlier : List Variable} {o : Option (Variable × Colour)}
    (h : a.undo = .ok (o, b)) (hdecided : a.decided = x :: earlier) :
    b.colours.size = a.colours.size ∧ b.decided = earlier ∧
      ∀ y, b.colourAt y = if y = x then none else a.colourAt y := by
  rw [undo, hdecided] at h
  obtain ⟨held, -, h⟩ := bind_eq_ok_iff.1 h
  obtain ⟨colours, hset, h⟩ := bind_eq_ok_iff.1 h
  obtain rfl : (⟨colours, earlier⟩ : Assignment) = b := congrArg Prod.snd (Except.ok.inj h)
  exact ⟨Table.size_of_set_eq_ok hset, rfl, fun y ↦ Table.getD_of_set_eq_ok hset y none⟩

theorem Coherent.undo {o : Option (Variable × Colour)} (ha : a.Coherent)
    (h : a.undo = .ok (o, b)) : b.Coherent ∧ b.colours.size = a.colours.size := by
  cases hdecided : a.decided with
  | nil =>
    rw [Assignment.undo, hdecided] at h
    obtain rfl : a = b := congrArg Prod.snd (Except.ok.inj h)
    exact ⟨ha, rfl⟩
  | cons x earlier =>
    obtain ⟨hsize, hearlier, hcolour⟩ := of_undo_eq_ok h hdecided
    obtain ⟨hx, hnodup⟩ := List.nodup_cons.1 (hdecided ▸ ha.nodup)
    refine ⟨⟨hearlier ▸ hnodup, ?_⟩, hsize⟩
    intro y
    have hy := ha.mem_decided y
    rw [hdecided, List.mem_cons] at hy
    rw [hearlier, hcolour]
    split
    · rename_i hyx
      simpa [hyx] using hx
    · rename_i hyx
      rw [← hy]
      exact ⟨Or.inr, fun hmem ↦ hmem.resolve_left hyx⟩

theorem Arises.coherent {n : Nat} (h : Arises n a) : a.Coherent ∧ a.colours.size = n := by
  induction h with
  | blank => exact ⟨coherent_blank n, Table.size_filled ..⟩
  | assign _ decided ih => exact ⟨ih.1.assign decided, (of_assign_eq_ok decided).2.2.1.trans ih.2⟩
  | undo _ undone ih => exact (ih.1.undo undone).imp_right fun hsize ↦ hsize.trans ih.2

/-- **Decisions and free places add up.** -/
theorem Coherent.count_add_free (h : a.Coherent) : a.count + a.free = a.colours.size := by
  have hperm : a.decided.Perm
      ((List.range a.colours.size).filter fun x ↦ (a.colourAt x).isSome) := by
    -- Both lists are free of repetitions, so it is enough that they have the same members.
    refine (List.perm_ext_iff_of_nodup h.nodup (List.nodup_range.filter _)).2 ?_
    intro x
    rw [h.mem_decided, List.mem_filter, List.mem_range]
    refine ⟨?_, And.right⟩
    intro hx
    obtain ⟨c, hc⟩ := Option.isSome_iff_exists.1 hx
    exact ⟨lt_size_of_colourAt_eq_some hc, hx⟩
  have hcount : a.count = (List.range a.colours.size).countP fun x ↦ (a.colourAt x).isSome := by
    rw [count, hperm.length_eq, List.countP_eq_length_filter]
  have hfree : a.free = (List.range a.colours.size).countP fun x ↦ ¬(a.colourAt x).isSome := by
    rw [free, Table.toList_eq_map_getD a.colours none, List.countP_map]
    refine List.countP_congr fun x _ ↦ ?_
    simp [colourAt]
  rw [hcount, hfree, ← List.length_eq_countP_add_countP, List.length_range]

/-- A coherent assignment is complete exactly if no place is free. -/
theorem Coherent.isComplete_iff_free (h : a.Coherent) : a.isComplete = true ↔ a.free = 0 := by
  have := h.count_add_free
  rw [isComplete, beq_iff_eq]
  omega

/-- A coherent assignment that is not complete has a free place. -/
theorem Coherent.isComplete_eq_false_iff (h : a.Coherent) : a.isComplete = false ↔ 0 < a.free := by
  rw [← Bool.not_eq_true, h.isComplete_iff_free, Nat.pos_iff_ne_zero]

/-- A coherent assignment is complete exactly if every variable has a colour. -/
theorem Coherent.isComplete_iff (h : a.Coherent) :
    a.isComplete = true ↔ ∀ x < a.colours.size, a.colourAt x ≠ none := by
  rw [h.isComplete_iff_free, free, List.countP_eq_zero, Table.toList_eq_map_getD a.colours none]
  simp [colourAt]

/-- A complete assignment is a colouring of its variables. -/
theorem Coherent.exists_colouring (h : a.Coherent) (hcomplete : a.isComplete = true) :
    ∃ f : Variable → Colour, ∀ x < a.colours.size, a.colourAt x = some (f x) := by
  refine ⟨fun x ↦ (a.colourAt x).getD 0, fun x hx ↦ ?_⟩
  obtain ⟨c, hc⟩ := Option.ne_none_iff_exists'.1 (h.isComplete_iff.1 hcomplete x hx)
  exact hc.trans (by simp [hc])

/-- A decision fills one free place. -/
theorem Coherent.free_of_assign (ha : a.Coherent) (h : a.assign x c = .ok b) :
    a.free = b.free + 1 := by
  obtain ⟨-, -, hsize, hdecided, -⟩ := of_assign_eq_ok h
  have hcount : b.count = a.count + 1 := by rw [count, hdecided, List.length_cons, count]
  have := ha.count_add_free
  have := (ha.assign h).count_add_free
  omega

/-! ### Decisions that no neighbour contradicts -/

/-- A decision that was found consistent is contradicted by no neighbour. -/
theorem of_isConsistent_eq_ok_true (h : a.isConsistent g x c = .ok true) :
    ∀ y ∈ g.row x, a.colourAt y ≠ some c := by
  obtain ⟨row, hrow, h⟩ := bind_eq_ok_iff.1 h
  obtain ⟨-, rfl⟩ := Graph.neighboursOf_eq_ok_iff.1 hrow
  intro y hy
  obtain ⟨o, ho, hne⟩ := map_eq_ok_iff.1 (allM_eq_ok_true_iff.1 h y hy)
  obtain ⟨-, rfl⟩ := colourOf_eq_ok_iff.1 ho
  simpa using hne

/-- On an assignment of the graph's size, consistency is found out without a fault. -/
theorem isConsistent_eq_ok (hg : g.Simple) (hsize : a.colours.size = g.size) (hx : x < g.size)
    (c : Colour) : a.isConsistent g x c = .ok ((g.row x).all fun y ↦ a.colourAt y != some c) := by
  rw [isConsistent, hg.neighboursOf_eq_ok hx, ok_bind]
  refine allM_eq_ok fun y hy ↦ ?_
  rw [colourOf_eq_ok (hsize ▸ hg.lt_size_right hy)]
  rfl

/-- A colour that no neighbour has is consistent. -/
theorem isConsistent_eq_ok_true (hg : g.Simple) (hsize : a.colours.size = g.size) (hx : x < g.size)
    (h : ∀ y ∈ g.row x, a.colourAt y ≠ some c) : a.isConsistent g x c = .ok true := by
  rw [isConsistent_eq_ok hg hsize hx, List.all_eq_true.2]
  exact fun y hy ↦ bne_iff_ne.2 (h y hy)

/-- The step of a search: a decision that no neighbour contradicts. -/
def Decides (g : Graph) (a b : Assignment) : Prop :=
  ∃ x c, (∀ y ∈ g.row x, a.colourAt y ≠ some c) ∧ a.assign x c = .ok b

/-- No edge joins two equal colours. -/
def IsProper (a : Assignment) (g : Graph) : Prop :=
  ∀ x y c, y ∈ g.row x → a.colourAt x = some c → a.colourAt y ≠ some c

theorem isProper_blank (n : Nat) (g : Graph) : (blank n).IsProper g := by
  intro x y c _ hx
  rw [colourAt_blank] at hx
  cases hx

/-- If all variables have a colour, the colouring that they have is proper. -/
theorem IsProper.isProper_of_colourAt (h : a.IsProper g) (hg : g.Simple) {f : Variable → Colour}
    (hf : ∀ x < g.size, a.colourAt x = some (f x)) : g.IsProper f := by
  intro x y hy heq
  refine h x y _ hy (hf x (hg.lt_size_left hy)) ?_
  exact (hf y (hg.lt_size_right hy)).trans (congrArg some heq.symm)

theorem Decides.isProper (hg : g.Simple) (h : Decides g a b) (ha : a.IsProper g) :
    b.IsProper g := by
  obtain ⟨z, d, hcon, hassign⟩ := h
  obtain ⟨-, -, -, -, hcolour⟩ := of_assign_eq_ok hassign
  intro x y c hy hx
  rw [hcolour] at hx ⊢
  -- At most one of the two ends is the variable that was decided, since no variable is its own
  -- neighbour.
  split at hx
  · rename_i hxz
    obtain rfl : d = c := Option.some.inj hx
    subst hxz
    rw [if_neg fun hyx : y = x ↦ hg.irrefl x (hyx ▸ hy)]
    exact hcon y hy
  · split
    · rename_i hyz
      subst hyz
      intro hdc
      obtain rfl : d = c := Option.some.inj hdc
      exact hcon x (hg.symm hy) hx
    · exact ha x y c hy hx

/-- **A chain of decisions keeps a colouring proper.** -/
theorem isProper_of_reflTransGen (hg : g.Simple) (h : ReflTransGen (Decides g) a b)
    (ha : a.IsProper g) : b.IsProper g := by
  induction h with
  | refl => exact ha
  | tail _ hstep ih => exact hstep.isProper hg ih

/-- Colours that stand stay as they are. -/
theorem colourAt_of_reflTransGen (h : ReflTransGen (Decides g) a b) (hx : a.colourAt x = some c) :
    b.colourAt x = some c := by
  induction h with
  | refl => exact hx
  | tail _ hstep ih =>
    obtain ⟨z, d, -, hassign⟩ := hstep
    obtain ⟨-, hnone, -, -, hcolour⟩ := of_assign_eq_ok hassign
    rw [hcolour, if_neg, ih]
    rintro rfl
    exact Option.some_ne_none _ (ih.symm.trans hnone)

/-- The size and the coherence of an assignment survive a chain of decisions. -/
theorem Coherent.of_reflTransGen (h : ReflTransGen (Decides g) a b) (ha : a.Coherent) :
    b.Coherent ∧ b.colours.size = a.colours.size := by
  induction h with
  | refl => exact ⟨ha, rfl⟩
  | tail _ hstep ih =>
    obtain ⟨z, d, -, hassign⟩ := hstep
    exact ⟨ih.1.assign hassign, (of_assign_eq_ok hassign).2.2.1.trans ih.2⟩

/-! ### The trail -/

theorem trail_eq (a : Assignment) :
    a.trail = a.decided.reverse.filterMap fun x ↦ (a.colourAt x).map fun c ↦ (x, c) := by
  refine List.filterMap_congr fun x _ ↦ ?_
  rw [colourAt, Table.getD, Table.toList, Array.getElem?_toList]
  cases a.colours.entries[x]? <;> rfl

/-- A decision is put at the end of the trail. -/
theorem Coherent.trail_of_assign (ha : a.Coherent) (h : a.assign x c = .ok b) :
    b.trail = a.trail ++ [(x, c)] := by
  obtain ⟨-, hnone, -, hdecided, hcolour⟩ := of_assign_eq_ok h
  have hearlier : ∀ y ∈ a.decided.reverse, b.colourAt y = a.colourAt y := by
    intro y hy
    refine (hcolour y).trans (if_neg ?_)
    rintro rfl
    have := (ha.mem_decided y).1 (List.mem_reverse.1 hy)
    rw [hnone] at this
    cases this
  have hx : b.colourAt x = some c := (hcolour x).trans (if_pos rfl)
  rw [trail_eq, hdecided, List.reverse_cons, List.filterMap_append, trail_eq,
    List.filterMap_congr fun y hy ↦ by rw [hearlier y hy]]
  simp [hx]

/-- **A chain of decisions goes on the trail**, after what stood there, and is about variables that
had no colour. -/
theorem Coherent.exists_trail_eq_append (h : ReflTransGen (Decides g) a b) (ha : a.Coherent) :
    ∃ new, b.trail = a.trail ++ new ∧ ∀ q ∈ new, a.colourAt q.1 = none := by
  induction h with
  | refl => exact ⟨[], by simp, by simp⟩
  | tail hrun hstep ih =>
    obtain ⟨new, htrail, hnew⟩ := ih
    obtain ⟨x, c, -, hassign⟩ := hstep
    refine ⟨new ++ [(x, c)], ?_, ?_⟩
    · rw [(of_reflTransGen hrun ha).1.trail_of_assign hassign, htrail, List.append_assoc]
    · intro q hq
      rcases List.mem_append.1 hq with hq | hq
      · exact hnew q hq
      · obtain rfl := List.mem_singleton.1 hq
        -- A colour from before the chain would still stand.
        refine Option.eq_none_iff_forall_ne_some.2 fun d hd ↦ ?_
        have := (of_assign_eq_ok hassign).2.1
        rw [colourAt_of_reflTransGen hrun hd] at this
        cases this

end GraphSearch.Colouring.Assignment
