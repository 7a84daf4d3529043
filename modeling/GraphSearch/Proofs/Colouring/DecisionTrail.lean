import GraphSearch.Proofs.Colouring.Decisions

/-!
# The decisions that stand

An assignment keeps the same thing twice: the colours that its variables have, and the variables in
the order in which they were decided. Whether it is complete is read off the second alone, and
whether a colour is contradicted off the first. So both have to say the same at any time, however
decisions are taken and taken back.

`Assignment.play` makes moves, one after another, and `Move.standing` tells from the moves alone
which decisions stand after them. An assignment is *in step* with decisions, `Assignment.InStep`, if
all that can be asked of it is answered by them. It stays in step with those that stand
(`play_inStep`), since taking a decision back is the inverse of taking it, in either order: whatever
was decided last can be taken back (`undo_of_assign`), and whatever is taken back could be decided
again, which gives the same assignment (`Coherent.undo_cases`).
-/

namespace GraphSearch.Colouring.Assignment

/-! ### Moves -/

/-- One call that changes an assignment. -/
inductive Move where
  /-- It is decided that `x` has the colour `c`. -/
  | assign (x : Variable) (c : Colour)
  /-- The most recent decision is taken back. -/
  | undo
deriving DecidableEq, Repr

namespace Move

/-- The decisions that stand after a move, if `ds` did before it, the oldest first. -/
def amend (ds : List (Variable × Colour)) : Move → List (Variable × Colour)
  | assign x c => ds ++ [(x, c)]
  | undo => ds.dropLast

/-- The decisions that stand after some moves, the oldest first. -/
def standing (moves : List Move) : List (Variable × Colour) := moves.foldl amend []

end Move

/-- Makes a move, and says which decision it takes back. -/
def move (a : Assignment) : Move → Except Fault (Option (Variable × Colour) × Assignment)
  | .assign x c => (fun b ↦ (none, b)) <$> a.assign x c
  | .undo => a.undo

/-- Makes moves, one after another, and says which decision each of them takes back. -/
def play (a : Assignment) :
    List Move → Except Fault (List (Option (Variable × Colour)) × Assignment)
  | [] => .ok ([], a)
  | m :: moves => do
    let (o, b) ← a.move m
    let (os, b) ← b.play moves
    return (o :: os, b)

/-- All that can be asked of an assignment of `n` variables is answered by the decisions `ds`. -/
structure InStep (a : Assignment) (n : Nat) (ds : List (Variable × Colour)) : Prop where
  /-- The trail gives the decisions, the oldest first. -/
  trail_eq : a.trail = ds
  /-- Of the variables that were decided the trail leaves out none. -/
  decided_eq : a.decided.reverse = ds.map Prod.fst
  /-- No variable is decided twice. -/
  nodup : a.decided.Nodup
  /-- A variable has the colour that was decided. -/
  colourOf_iff : ∀ x c, a.colourOf x = .ok (some c) ↔ (x, c) ∈ ds
  /-- A variable has a colour exactly if it was decided. -/
  isAssigned_iff : ∀ x, a.isAssigned x = .ok true ↔ x ∈ a.decided
  /-- As many decisions are counted as there are. -/
  count_eq : a.count = ds.length
  /-- All variables have a colour exactly if the assignment counts as complete. -/
  isComplete_iff : a.isComplete = true ↔ ∀ x < n, a.isAssigned x = .ok true
  /-- Exactly the variables that were not decided can be. -/
  exists_assign_iff : ∀ x c, (∃ b, a.assign x c = .ok b) ↔ x < n ∧ x ∉ a.decided
  /-- The last decision is the one that can be taken back. -/
  exists_undo : ∃ b, a.undo = .ok (ds.getLast?, b)
  /-- Taking as many decisions back as were taken gives them back, the last one first, and restores
  the assignment. -/
  restores : ∀ (new : List (Variable × Colour)) os b,
    a.play (new.map fun d ↦ .assign d.1 d.2) = .ok (os, b) →
      b.play (.replicate new.length .undo) = .ok (new.reverse.map some, a)

variable {a b c : Assignment} {n : Nat} {x : Variable} {d : Colour}
  {o : Option (Variable × Colour)} {os os' : List (Option (Variable × Colour))}
  {m : Move} {moves moves' : List Move}

theorem play_cons_eq_ok_iff : a.play (m :: moves) = .ok (os, c) ↔
    ∃ o b os', a.move m = .ok (o, b) ∧ b.play moves = .ok (os', c) ∧ os = o :: os' := by
  constructor
  · intro h
    obtain ⟨⟨o, b⟩, hmove, h⟩ := bind_eq_ok_iff.1 h
    obtain ⟨⟨os', b'⟩, hplay, h⟩ := bind_eq_ok_iff.1 h
    obtain ⟨rfl, rfl⟩ := Prod.mk.inj (Except.ok.inj h)
    exact ⟨o, b, os', hmove, hplay, rfl⟩
  · rintro ⟨o, b, os', hmove, hplay, rfl⟩
    rw [play, hmove, ok_bind]
    dsimp only
    rw [hplay]
    rfl

/-- Moves can be made in two parts. -/
theorem play_append (h : a.play moves = .ok (os, b)) (h' : b.play moves' = .ok (os', c)) :
    a.play (moves ++ moves') = .ok (os ++ os', c) := by
  induction moves generalizing a os with
  | nil =>
    obtain ⟨rfl, rfl⟩ := Prod.mk.inj (Except.ok.inj h)
    exact h'
  | cons m moves ih =>
    obtain ⟨o, a', os, hmove, hplay, rfl⟩ := play_cons_eq_ok_iff.1 h
    exact play_cons_eq_ok_iff.2 ⟨o, a', os ++ os', hmove, ih hplay, rfl⟩

/-- **Decisions are taken back in the opposite order**, and the assignment is restored. -/
theorem play_undo_of_play_assign {new : List (Variable × Colour)}
    (h : a.play (new.map fun d ↦ .assign d.1 d.2) = .ok (os, b)) :
    b.play (.replicate new.length .undo) = .ok (new.reverse.map some, a) := by
  induction new generalizing a os with
  | nil =>
    obtain ⟨-, rfl⟩ := Prod.mk.inj (Except.ok.inj h)
    rfl
  | cons d new ih =>
    obtain ⟨o, a', os, hmove, hplay, rfl⟩ := play_cons_eq_ok_iff.1 h
    obtain ⟨a', hassign, heq⟩ := map_eq_ok_iff.1 hmove
    obtain ⟨rfl, rfl⟩ := Prod.mk.inj heq
    have hundo : a'.play [.undo] = .ok ([some d], a) :=
      play_cons_eq_ok_iff.2 ⟨some d, a, [], undo_of_assign hassign, rfl, rfl⟩
    rw [List.length_cons, List.replicate_succ', List.reverse_cons, List.map_append]
    exact play_append (ih hplay) hundo

/-! ### What the trail says -/

/-- The trail gives every decided variable. -/
theorem Coherent.map_fst_trail (ha : a.Coherent) : a.trail.map Prod.fst = a.decided.reverse := by
  have hdecided : ∀ x ∈ a.decided.reverse,
      (((a.colourAt x).map fun c ↦ (x, c)).map Prod.fst) = some x := by
    intro x hx
    obtain ⟨c, hc⟩ := Option.isSome_iff_exists.1 ((ha.mem_decided x).1 (List.mem_reverse.1 hx))
    rw [hc]
    rfl
  rw [trail_eq, List.map_filterMap, List.filterMap_congr hdecided, List.filterMap_some]

/-- What stands on the trail is what the variables have. -/
theorem Coherent.mem_trail (ha : a.Coherent) : (x, d) ∈ a.trail ↔ a.colourAt x = some d := by
  rw [trail_eq, List.mem_filterMap]
  constructor
  · rintro ⟨y, -, hy⟩
    obtain ⟨c, hc, heq⟩ := Option.map_eq_some_iff.1 hy
    obtain ⟨rfl, rfl⟩ := Prod.mk.inj heq
    exact hc
  · intro hx
    refine ⟨x, List.mem_reverse.2 ((ha.mem_decided x).2 ?_), ?_⟩
    · rw [hx]
      rfl
    · rw [hx]
      rfl

/-- The variables that have a colour are the decided ones. -/
theorem Coherent.isAssigned_eq_ok_true_iff (ha : a.Coherent) :
    a.isAssigned x = .ok true ↔ x ∈ a.decided := by
  rw [isAssigned, map_eq_ok_iff, ha.mem_decided]
  constructor
  · rintro ⟨o, ho, hsome⟩
    obtain ⟨-, rfl⟩ := colourOf_eq_ok_iff.1 ho
    exact hsome
  · intro hsome
    obtain ⟨c, hc⟩ := Option.isSome_iff_exists.1 hsome
    exact ⟨_, colourOf_eq_ok (lt_size_of_colourAt_eq_some hc), hsome⟩

/-- Exactly the variables that are not decided can be. -/
theorem Coherent.exists_assign_eq_ok_iff (ha : a.Coherent) (d : Colour) :
    (∃ b, a.assign x d = .ok b) ↔ x < a.colours.size ∧ x ∉ a.decided := by
  rw [ha.mem_decided, Bool.not_eq_true, Option.isSome_eq_false_iff, Option.isNone_iff_eq_none]
  constructor
  · rintro ⟨b, hb⟩
    obtain ⟨hx, hnone, -⟩ := of_assign_eq_ok hb
    exact ⟨hx, hnone⟩
  · rintro ⟨hx, hnone⟩
    exact exists_assign_eq_ok hx hnone d

/-- **Taking back is the inverse of deciding**, where there is anything to be taken back. -/
theorem Coherent.undo_cases (ha : a.Coherent) :
    (a.decided = [] ∧ a.undo = .ok (none, a)) ∨
      ∃ x c b, a.undo = .ok (some (x, c), b) ∧ b.assign x c = .ok a := by
  cases hdecided : a.decided with
  | nil =>
    refine Or.inl ⟨rfl, ?_⟩
    rw [Assignment.undo, hdecided]
  | cons x earlier =>
    have hmem : x ∈ a.decided := hdecided ▸ List.mem_cons_self
    obtain ⟨c, hc⟩ := Option.isSome_iff_exists.1 ((ha.mem_decided x).1 hmem)
    have hx := lt_size_of_colourAt_eq_some hc
    obtain ⟨colours, hset⟩ := Table.exists_set_eq_ok hx (none : Option Colour)
    have hundo : a.undo = .ok (some (x, c), ⟨colours, earlier⟩) := by
      rw [Assignment.undo, hdecided]
      dsimp only
      rw [colourOf_eq_ok hx, ok_bind, hset, hc]
      rfl
    obtain ⟨hsize, -, hcolour⟩ := of_undo_eq_ok hundo hdecided
    obtain ⟨a', hassign⟩ := exists_assign_eq_ok (hsize ▸ hx) ((hcolour x).trans (if_pos rfl)) c
    obtain ⟨-, -, hsize', hdecided', hcolour'⟩ := of_assign_eq_ok hassign
    have hback : a' = a := by
      refine eq_of_colourAt_eq (hsize'.trans hsize) (fun y ↦ ?_) (hdecided'.trans hdecided.symm)
      rw [hcolour', hcolour]
      split
      · rename_i hy
        rw [hy, hc]
      · rfl
    exact Or.inr ⟨x, c, _, hundo, hback ▸ hassign⟩

/-- The last entry of the trail is what can be taken back, and the others are what is left. -/
theorem Coherent.exists_undo (ha : a.Coherent) :
    ∃ b, a.undo = .ok (a.trail.getLast?, b) ∧ b.trail = a.trail.dropLast := by
  rcases ha.undo_cases with ⟨hnil, hundo⟩ | ⟨x, c, b, hundo, hassign⟩
  · have htrail : a.trail = [] := by
      rw [trail_eq, hnil]
      rfl
    exact ⟨a, by rw [hundo, htrail]; rfl, by rw [htrail]; rfl⟩
  · have htrail := (ha.undo hundo).1.trail_of_assign hassign
    exact ⟨b, by rw [hundo, htrail, List.getLast?_concat], by rw [htrail, List.dropLast_concat]⟩

/-! ### What moves keep -/

/-- A move keeps an assignment coherent and changes its trail as it changes the decisions. -/
theorem Coherent.of_move_eq_ok (ha : a.Coherent) (h : a.move m = .ok (o, b)) :
    b.Coherent ∧ b.colours.size = a.colours.size ∧ b.trail = m.amend a.trail := by
  cases m with
  | assign x c =>
    obtain ⟨b, hassign, heq⟩ := map_eq_ok_iff.1 h
    obtain ⟨-, rfl⟩ := Prod.mk.inj heq
    exact ⟨ha.assign hassign, (of_assign_eq_ok hassign).2.2.1, ha.trail_of_assign hassign⟩
  | undo =>
    obtain ⟨b', hundo, htrail⟩ := ha.exists_undo
    obtain ⟨-, rfl⟩ := Prod.mk.inj (Except.ok.inj (hundo.symm.trans h))
    exact ⟨(ha.undo h).1, (ha.undo h).2, htrail⟩

/-- **So do several moves.** -/
theorem Coherent.of_play_eq_ok (ha : a.Coherent) (h : a.play moves = .ok (os, b)) :
    b.Coherent ∧ b.colours.size = a.colours.size ∧ b.trail = moves.foldl Move.amend a.trail := by
  induction moves generalizing a os with
  | nil =>
    obtain ⟨-, rfl⟩ := Prod.mk.inj (Except.ok.inj h)
    exact ⟨ha, rfl, rfl⟩
  | cons m moves ih =>
    obtain ⟨o, a', os, hmove, hplay, rfl⟩ := play_cons_eq_ok_iff.1 h
    obtain ⟨ha', hsize', htrail'⟩ := ha.of_move_eq_ok hmove
    obtain ⟨hb, hsize, htrail⟩ := ih ha' hplay
    exact ⟨hb, hsize.trans hsize', htrail.trans (by rw [htrail', List.foldl_cons])⟩

/-- A coherent assignment is in step with its trail. -/
theorem Coherent.inStep (ha : a.Coherent) (hsize : a.colours.size = n) : a.InStep n a.trail where
  trail_eq := rfl
  decided_eq := ha.map_fst_trail.symm
  nodup := ha.nodup
  colourOf_iff x c := by
    rw [colourOf_eq_ok_iff, ha.mem_trail, eq_comm, and_iff_right_of_imp]
    exact lt_size_of_colourAt_eq_some
  isAssigned_iff _ := ha.isAssigned_eq_ok_true_iff
  count_eq := by
    rw [count, ← List.length_reverse, ← ha.map_fst_trail, List.length_map]
  isComplete_iff := by
    rw [ha.isComplete_iff, hsize]
    simp only [ha.isAssigned_eq_ok_true_iff, ha.mem_decided, Option.isSome_iff_ne_none]
  exists_assign_iff x c := hsize ▸ ha.exists_assign_eq_ok_iff c
  exists_undo := by
    obtain ⟨b, hundo, -⟩ := ha.exists_undo
    exact ⟨b, hundo⟩
  restores _ _ _ := play_undo_of_play_assign

/-- **An assignment is in step with the decisions that stand**, whatever moves have been made. Its
trail gives them in their order, the variables that they decide are those that have a colour, it
counts as complete exactly if all variables have one, and what is decided further can be taken back
without a trace. -/
theorem play_inStep (n : Nat) (moves : List Move) (os : List (Option (Variable × Colour)))
    (a : Assignment) (h : (blank n).play moves = .ok (os, a)) :
    a.InStep n (Move.standing moves) := by
  obtain ⟨ha, hsize, htrail⟩ := (coherent_blank n).of_play_eq_ok h
  have hblank : (blank n).trail = [] := rfl
  rw [hblank] at htrail
  have hstep := ha.inStep (hsize.trans (Table.size_filled ..))
  rwa [htrail] at hstep

/-- The first of three variables is decided and taken back, there is one more undo than there are
decisions, and the first is decided again after the last: both decisions stand, in this order, and
the second variable has no colour. -/
theorem play_inStep_redecided :
    ∃ os a, (blank 3).play [.assign 0 1, .undo, .undo, .assign 2 5, .assign 0 4] = .ok (os, a) ∧
      a.trail = [(2, 5), (0, 4)] ∧ a.isComplete = false := by
  obtain ⟨os, a, h⟩ : ∃ os a, (blank 3).play
      [.assign 0 1, .undo, .undo, .assign 2 5, .assign 0 4] = .ok (os, a) := ⟨_, _, rfl⟩
  have hstep := play_inStep 3 _ os a h
  refine ⟨os, a, h, hstep.trail_eq, Bool.eq_false_of_not_eq_true fun hcomplete ↦ ?_⟩
  have hone : 1 ∈ a.decided :=
    (hstep.isAssigned_iff 1).1 (hstep.isComplete_iff.1 hcomplete 1 (by decide))
  rw [← List.mem_reverse, hstep.decided_eq] at hone
  exact absurd hone (by decide)

end GraphSearch.Colouring.Assignment
