import GraphSearch.Colouring.Backtracking
import GraphSearch.Proofs.Colouring.Decisions

/-!
# Searches as trees

What a search does at a node depends on the depth that it is given only through the free places of
its assignment. `Search.Explores` leaves the depth out: it relates a stage of a search, a node or
the colours that are still to be tried there, to its answer and to the state that is left, with one
rule for each thing that can happen. It also tells the assignments that come about by a decision on
the way, each right after it was taken, in their order. For a coherent assignment it is the search
(`run_eq_ok_iff`), so what is said of all searches is said by induction on it, the selectors being
arbitrary.

`Explores.effect` is the first such statement. A search that fails leaves the assignment as it was,
to the last detail, because the only decision that it takes back is the one that it took last. A
search that succeeds leaves a complete assignment, reached from the given one by decisions that no
neighbour contradicts.

What holds on the way is said of the positions to which a search comes from its root, one rule of
`Search.Passes` after another.
-/

namespace GraphSearch.Colouring.Search

open Relation

variable {σ : Type} {p : Problem σ} {store : Store} {s t : State σ} {x : Variable} {c : Colour}
  {cs : List Colour} {tried : List Assignment} {found : Bool}

/-- What the selectors are shown at a node. -/
def Problem.contextAt (p : Problem σ) (store : Store) (s : State σ) : Context :=
  ⟨p.graph, store, s.assignment⟩

/-- The state after a selection. -/
def State.selected (s : State σ) (r : Selected σ) : State σ :=
  { s with memory := r.memory, events := s.events.appendList r.events }

/-! ### One decision -/

/-- What is propagated after `c` has been assigned to `x`. -/
def Problem.branch (p : Problem σ) (store : Store) (x : Variable) (c : Colour) :
    Except Fault Store :=
  if p.narrow then Prod.snd <$> store.narrow x c else .ok store

theorem attempt_eq (p : Problem σ) (store : Store) (x : Variable) (c : Colour) (s : State σ) :
    attempt p store x c s = do
      let a ← s.assignment.assign x c
      let k := s.statistics.tried a.count
      let d ← p.branch store x c
      let o ← propagate p.graph d k.propagation
      return (if o.wipedOut.isSome then none else some o.store,
        { s with
          assignment := a
          statistics := { k with propagation := o.statistics }
          events := (s.events.push (.trying a.count x c)).appendList o.events }) := by
  rw [attempt, Problem.branch]
  split <;> rfl

/-- An attempt takes one decision, and its store is what propagation leaves of the branch. -/
theorem of_attempt_eq_ok {b : Option Store} (h : attempt p store x c s = .ok (b, t)) :
    s.assignment.assign x c = .ok t.assignment ∧ t.memory = s.memory ∧
      ∃ d o k, p.branch store x c = .ok d ∧ propagate p.graph d k = .ok o ∧
        b = if o.wipedOut.isSome then none else some o.store := by
  rw [attempt_eq] at h
  obtain ⟨a, hassign, h⟩ := bind_eq_ok_iff.1 h
  obtain ⟨d, hbranch, h⟩ := bind_eq_ok_iff.1 h
  obtain ⟨o, ho, h⟩ := bind_eq_ok_iff.1 h
  obtain ⟨rfl, rfl⟩ := Prod.mk.inj (Except.ok.inj h)
  exact ⟨hassign, rfl, d, o, _, hbranch, ho, rfl⟩

/-- Taking back the decision that was taken last restores the assignment. -/
theorem retract_eq_ok {a : Assignment} (h : a.assign x c = .ok s.assignment) :
    retract x c s = .ok { s with assignment := a, statistics := s.statistics.undone } := by
  rw [retract, Assignment.undo_of_assign h, ok_bind]
  simp

theorem retract_eq_ok_iff : retract x c s = .ok t ↔
    ∃ a, s.assignment.undo = .ok (some (x, c), a) ∧
      t = { s with assignment := a, statistics := s.statistics.undone } := by
  rw [retract]
  constructor
  · intro h
    obtain ⟨⟨undone, a⟩, hundo, h⟩ := bind_eq_ok_iff.1 h
    by_cases hdecision : undone = some (x, c)
    · subst hdecision
      refine ⟨a, hundo, ?_⟩
      simpa [eq_comm] using h
    · simp [hdecision] at h
      cases h
  · rintro ⟨a, hundo, rfl⟩
    rw [hundo, ok_bind]
    simp

/-! ### One node -/

theorem expand_of_incomplete (h : s.assignment.isComplete = false) (guard : Guard)
    (descend : Continuation σ) :
    expand p guard descend store s = (do
      let r ← p.strategy.selectVariable (p.contextAt store s) s.memory
      match r.choice with
      | none => .ok (false, s.selected r)
      | some x =>
        let (cs, m) ← p.strategy.orderColours (p.contextAt store s) x r.memory
        tryColours p guard descend store x cs { s.selected r with memory := m }) := by
  rw [expand, if_neg (by rw [h]; exact Bool.false_ne_true)]
  rfl

section

variable (guard : Guard)

theorem tryColours_of_contradicted (h : guard s.assignment x c = .ok false)
    (descend : Continuation σ) :
    tryColours p guard descend store x (c :: cs) s = tryColours p guard descend store x cs s := by
  rw [tryColours, h]
  rfl

theorem tryColours_of_wiped (h : guard s.assignment x c = .ok true) {u : State σ}
    (hattempt : attempt p store x c s = .ok (none, u)) (descend : Continuation σ) :
    tryColours p guard descend store x (c :: cs) s =
      retract x c u >>= tryColours p guard descend store x cs := by
  rw [tryColours, h, ok_bind, hattempt]
  rfl

theorem tryColours_of_branch (h : guard s.assignment x c = .ok true) {d : Store}
    {u : State σ} (hattempt : attempt p store x c s = .ok (some d, u)) (descend : Continuation σ) :
    tryColours p guard descend store x (c :: cs) s = (do
      let (found, v) ← descend d u
      if found then .ok (true, v)
      else retract x c v >>= tryColours p guard descend store x cs) := by
  rw [tryColours, h, ok_bind, hattempt]
  rfl

end

/-! ### The tree of a search -/

/-- Where a search stands. -/
inductive Stage where
  /-- At a node, before a variable is selected. -/
  | node
  /-- Before the colours `cs` are tried for `x`. -/
  | trying (x : Variable) (cs : List Colour)

/-- From this stage and store the search takes the first state to the second, tries these
assignments on the way and answers so. -/
inductive Explores (p : Problem σ) :
    Stage → Store → State σ → List Assignment → Bool → State σ → Prop where
  /-- Nothing is left to decide. -/
  | complete {store : Store} {s : State σ} (complete : s.assignment.isComplete = true) :
      Explores p .node store s [] true s
  /-- No variable is selected. -/
  | givenUp {store : Store} {s : State σ} {r : Selected σ}
      (incomplete : s.assignment.isComplete = false)
      (selected : p.strategy.selectVariable (p.contextAt store s) s.memory = .ok r)
      (choice : r.choice = none) : Explores p .node store s [] false (s.selected r)
  /-- A variable is selected, and its colours are put in order. -/
  | branched {store : Store} {s t : State σ} {r : Selected σ} {x : Variable} {cs : List Colour}
      {m : σ} {tried : List Assignment} {found : Bool}
      (incomplete : s.assignment.isComplete = false)
      (selected : p.strategy.selectVariable (p.contextAt store s) s.memory = .ok r)
      (choice : r.choice = some x)
      (ordered : p.strategy.orderColours (p.contextAt store s) x r.memory = .ok (cs, m))
      (rest : Explores p (.trying x cs) store { s.selected r with memory := m } tried found t) :
      Explores p .node store s tried found t
  /-- All colours have been tried. -/
  | exhausted {store : Store} {s : State σ} {x : Variable} :
      Explores p (.trying x []) store s [] false s
  /-- A neighbour has the colour, and it is not tried. -/
  | skipped {store : Store} {s t : State σ} {x : Variable} {c : Colour} {cs : List Colour}
      {tried : List Assignment} {found : Bool}
      (contradicted : s.assignment.isConsistent p.graph x c = .ok false)
      (rest : Explores p (.trying x cs) store s tried found t) :
      Explores p (.trying x (c :: cs)) store s tried found t
  /-- Propagation empties a domain, and the decision is taken back. -/
  | wiped {store : Store} {s u w t : State σ} {x : Variable} {c : Colour} {cs : List Colour}
      {tried : List Assignment} {found : Bool}
      (consistent : s.assignment.isConsistent p.graph x c = .ok true)
      (attempted : attempt p store x c s = .ok (none, u)) (retracted : retract x c u = .ok w)
      (rest : Explores p (.trying x cs) store w tried found t) :
      Explores p (.trying x (c :: cs)) store s (u.assignment :: tried) found t
  /-- The search below fails, and the decision is taken back. -/
  | failed {store d : Store} {s u v w t : State σ} {x : Variable} {c : Colour} {cs : List Colour}
      {inner tried : List Assignment} {found : Bool}
      (consistent : s.assignment.isConsistent p.graph x c = .ok true)
      (attempted : attempt p store x c s = .ok (some d, u))
      (below : Explores p .node d u inner false v) (retracted : retract x c v = .ok w)
      (rest : Explores p (.trying x cs) store w tried found t) :
      Explores p (.trying x (c :: cs)) store s (u.assignment :: (inner ++ tried)) found t
  /-- The search below succeeds. -/
  | succeeded {store d : Store} {s u t : State σ} {x : Variable} {c : Colour} {cs : List Colour}
      {inner : List Assignment} (consistent : s.assignment.isConsistent p.graph x c = .ok true)
      (attempted : attempt p store x c s = .ok (some d, u))
      (below : Explores p .node d u inner true t) :
      Explores p (.trying x (c :: cs)) store s (u.assignment :: inner) true t

/-! ### What a search does to the assignment -/

/-- Once a decision is taken back, the assignment is the one before it. -/
theorem assignment_of_retract {u v w : State σ} {b : Option Store}
    (hattempt : attempt p store x c s = .ok (b, u)) (hsame : v.assignment = u.assignment)
    (hretract : retract x c v = .ok w) : w.assignment = s.assignment ∧ w.memory = v.memory := by
  have hassign := (of_attempt_eq_ok hattempt).1
  obtain rfl := Except.ok.inj ((retract_eq_ok (hsame ▸ hassign)).symm.trans hretract)
  exact ⟨rfl, rfl⟩

/-- **A search takes back what it does, or succeeds by consistent decisions.** This holds whatever
the selectors are. -/
theorem Explores.effect {stage : Stage} (h : Explores p stage store s tried found t) :
    (found = false → t.assignment = s.assignment) ∧
      (found = true → ReflTransGen (Assignment.Decides p.graph) s.assignment t.assignment ∧
        t.assignment.isComplete = true) := by
  induction h with
  | complete complete => exact ⟨nofun, fun _ ↦ ⟨.refl, complete⟩⟩
  | givenUp _ _ _ => exact ⟨fun _ ↦ rfl, nofun⟩
  | branched _ _ _ _ _ ih => exact ih
  | exhausted => exact ⟨fun _ ↦ rfl, nofun⟩
  | skipped _ _ ih => exact ih
  | wiped _ attempted retracted _ ih =>
    rwa [(assignment_of_retract attempted rfl retracted).1] at ih
  | failed _ attempted _ retracted _ ihbelow ih =>
    -- The search below left the assignment of the child, so what is taken back is its decision.
    rwa [(assignment_of_retract attempted (ihbelow.1 rfl) retracted).1] at ih
  | succeeded consistent attempted _ ih =>
    obtain ⟨hrun, hcomplete⟩ := ih.2 rfl
    have hstep : Assignment.Decides p.graph _ _ := ⟨_, _,
      Assignment.of_isConsistent_eq_ok_true consistent, (of_attempt_eq_ok attempted).1⟩
    exact ⟨nofun, fun _ ↦ ⟨hrun.head hstep, hcomplete⟩⟩

/-! ### The tree is what is run -/

/-- Trying colours explores them, if what is searched below is explored. -/
theorem exists_explores_of_tryColours {descend : Continuation σ} {n : Nat}
    (hdescend : ∀ {d u found v}, u.assignment.Coherent → u.assignment.free = n →
      descend d u = .ok (found, v) → ∃ tried, Explores p .node d u tried found v)
    (hs : s.assignment.Coherent) (hfree : s.assignment.free = n + 1)
    (h : tryColours p (.consistent p.graph) descend store x cs s = .ok (found, t)) :
    ∃ tried, Explores p (.trying x cs) store s tried found t := by
  induction cs generalizing s with
  | nil =>
    obtain ⟨rfl, rfl⟩ := Prod.mk.inj (Except.ok.inj h)
    exact ⟨_, .exhausted⟩
  | cons c cs ih =>
    obtain ⟨consistent, hconsistent, hrest⟩ := bind_eq_ok_iff.1 h
    cases consistent with
    | false => exact (ih hs hfree hrest).imp fun _ ↦ .skipped hconsistent
    | true =>
      obtain ⟨⟨branch, u⟩, hattempt, -⟩ := bind_eq_ok_iff.1 hrest
      cases branch with
      | none =>
        rw [tryColours_of_wiped _ hconsistent hattempt] at h
        obtain ⟨w, hretract, h⟩ := bind_eq_ok_iff.1 h
        have hw := (assignment_of_retract hattempt rfl hretract).1
        obtain ⟨_, hafter⟩ := ih (hw ▸ hs) (hw ▸ hfree) h
        exact ⟨_, .wiped hconsistent hattempt hretract hafter⟩
      | some d =>
        rw [tryColours_of_branch _ hconsistent hattempt] at h
        obtain ⟨⟨inner, v⟩, hinner, h⟩ := bind_eq_ok_iff.1 h
        have hassign := (of_attempt_eq_ok hattempt).1
        -- The child has one free place less, which is the depth that `descend` goes down.
        have hu : u.assignment.free = n := by
          have := hs.free_of_assign hassign
          omega
        obtain ⟨_, hbelow⟩ := hdescend (hs.assign hassign) hu hinner
        cases inner with
        | true =>
          obtain ⟨rfl, rfl⟩ := Prod.mk.inj (Except.ok.inj h)
          exact ⟨_, .succeeded hconsistent hattempt hbelow⟩
        | false =>
          obtain ⟨w, hretract, h⟩ := bind_eq_ok_iff.1 h
          have hw := (assignment_of_retract hattempt (hbelow.effect.1 rfl) hretract).1
          obtain ⟨_, hafter⟩ := ih (hw ▸ hs) (hw ▸ hfree) h
          exact ⟨_, .failed hconsistent hattempt hbelow hretract hafter⟩

/-- A search below a node explores it. -/
theorem exists_explores_of_backtrack {n : Nat} (hs : s.assignment.Coherent)
    (hfree : s.assignment.free = n)
    (h : backtrack p (.consistent p.graph) n store s = .ok (found, t)) :
    ∃ tried, Explores p .node store s tried found t := by
  induction n generalizing store s found t with
  | zero =>
    have hcomplete := hs.isComplete_iff_free.2 hfree
    rw [backtrack, expand, if_pos hcomplete] at h
    obtain ⟨rfl, rfl⟩ := Prod.mk.inj (Except.ok.inj h)
    exact ⟨_, .complete hcomplete⟩
  | succ n ih =>
    have hincomplete := hs.isComplete_eq_false_iff.2 (hfree ▸ Nat.succ_pos n)
    rw [backtrack, expand_of_incomplete hincomplete] at h
    obtain ⟨r, hselected, h⟩ := bind_eq_ok_iff.1 h
    cases hchoice : r.choice with
    | none =>
      rw [hchoice] at h
      obtain ⟨rfl, rfl⟩ := Prod.mk.inj (Except.ok.inj h)
      exact ⟨_, .givenUp hincomplete hselected hchoice⟩
    | some x =>
      rw [hchoice] at h
      obtain ⟨⟨cs, m⟩, hordered, h⟩ := bind_eq_ok_iff.1 h
      obtain ⟨_, hrest⟩ := exists_explores_of_tryColours (s := { s.selected r with memory := m })
        (fun hu hn ↦ ih hu hn) hs hfree h
      exact ⟨_, .branched hincomplete hselected hchoice hordered hrest⟩

/-- The search from a stage, as deep as there are free places. -/
def Stage.run (p : Problem σ) : Stage → Continuation σ
  | .node, store, s => backtrack p (.consistent p.graph) s.assignment.free store s
  | .trying x cs, store, s =>
    tryColours p (.consistent p.graph) (backtrack p (.consistent p.graph) (s.assignment.free - 1))
      store x cs s

/-- A node that is incomplete has a place for one decision more. -/
theorem Stage.run_node (hs : s.assignment.Coherent) (h : s.assignment.isComplete = false) :
    Stage.run p .node store s =
      expand p (.consistent p.graph) (backtrack p (.consistent p.graph) (s.assignment.free - 1))
        store s := by
  have hfree : s.assignment.free - 1 + 1 = s.assignment.free :=
    Nat.sub_add_cancel (hs.isComplete_eq_false_iff.1 h)
  rw [Stage.run, ← hfree, backtrack]
  rfl

/-- What is explored is what the search does. -/
theorem Explores.run_eq_ok {stage : Stage} (h : Explores p stage store s tried found t)
    (hs : s.assignment.Coherent) : stage.run p store s = .ok (found, t) := by
  induction h with
  | @complete store s complete =>
    show backtrack p _ s.assignment.free store s = _
    rw [hs.isComplete_iff_free.1 complete, backtrack, expand, if_pos complete]
    rfl
  | givenUp incomplete selected choice =>
    rw [Stage.run_node hs incomplete, expand_of_incomplete incomplete, selected, ok_bind, choice]
  | branched incomplete selected choice ordered _ ih =>
    rw [Stage.run_node hs incomplete, expand_of_incomplete incomplete, selected, ok_bind, choice]
    dsimp only
    rw [ordered]
    exact ih hs
  | exhausted => rfl
  | skipped contradicted _ ih =>
    rw [Stage.run, tryColours_of_contradicted _ contradicted]
    exact ih hs
  | wiped consistent attempted retracted _ ih =>
    have hw := (assignment_of_retract attempted rfl retracted).1
    have ih := ih (hw ▸ hs)
    rw [Stage.run, hw] at ih
    rw [Stage.run, tryColours_of_wiped _ consistent attempted, retracted]
    exact ih
  | failed consistent attempted below retracted _ ihbelow ih =>
    have hassign := (of_attempt_eq_ok attempted).1
    have hw := (assignment_of_retract attempted (below.effect.1 rfl) retracted).1
    have ih := ih (hw ▸ hs)
    have ihbelow := ihbelow (hs.assign hassign)
    rw [Stage.run, hw, hs.free_of_assign hassign, Nat.add_sub_cancel] at ih
    rw [Stage.run, hs.free_of_assign hassign, Nat.add_sub_cancel,
      tryColours_of_branch _ consistent attempted, show backtrack _ _ _ _ _ = _ from ihbelow,
      ok_bind]
    dsimp only
    rw [if_neg Bool.false_ne_true, retracted]
    exact ih
  | succeeded consistent attempted _ ih =>
    have hassign := (of_attempt_eq_ok attempted).1
    have ih := ih (hs.assign hassign)
    rw [Stage.run, hs.free_of_assign hassign, Nat.add_sub_cancel,
      tryColours_of_branch _ consistent attempted, show backtrack _ _ _ _ _ = _ from ih]
    rfl

/-- **A search is the exploration of its root**, if the store covers the graph and the assignment is
coherent. -/
theorem run_eq_ok_iff (hstore : store.size = p.graph.size) (hs : s.assignment.Coherent) :
    run p store s = .ok (found, t) ↔ ∃ tried, Explores p .node store s tried found t := by
  have hrun : run p store s = Stage.run p .node store s := by
    rw [run, if_neg (not_not.2 hstore)]
    rfl
  rw [hrun]
  exact ⟨fun h ↦ exists_explores_of_backtrack hs rfl h, fun ⟨_, h⟩ ↦ h.run_eq_ok hs⟩

/-! ### Where a search passes -/

/-- Where a search stands, and the store and the state that it has there. -/
structure Position (σ : Type) where
  /-- Where it stands. -/
  stage : Stage
  /-- The store that it has there. -/
  store : Store
  /-- The state that it has there. -/
  state : State σ

/-- The search passes from one position to the next: with each rule of `Explores` it comes to those
from which the rule explores further. -/
inductive Passes (p : Problem σ) : Position σ → Position σ → Prop where
  /-- A variable is selected, and its colours are put in order. -/
  | branched {store : Store} {s : State σ} {r : Selected σ} {x : Variable} {cs : List Colour}
      {m : σ}
      (incomplete : s.assignment.isComplete = false)
      (selected : p.strategy.selectVariable (p.contextAt store s) s.memory = .ok r)
      (choice : r.choice = some x)
      (ordered : p.strategy.orderColours (p.contextAt store s) x r.memory = .ok (cs, m)) :
      Passes p ⟨.node, store, s⟩ ⟨.trying x cs, store, { s.selected r with memory := m }⟩
  /-- A neighbour has the colour. -/
  | skipped {store : Store} {s : State σ} {x : Variable} {c : Colour} {cs : List Colour}
      (contradicted : s.assignment.isConsistent p.graph x c = .ok false) :
      Passes p ⟨.trying x (c :: cs), store, s⟩ ⟨.trying x cs, store, s⟩
  /-- Propagation empties a domain, and the decision is taken back. -/
  | wiped {store : Store} {s u w : State σ} {x : Variable} {c : Colour} {cs : List Colour}
      (consistent : s.assignment.isConsistent p.graph x c = .ok true)
      (attempted : attempt p store x c s = .ok (none, u)) (retracted : retract x c u = .ok w) :
      Passes p ⟨.trying x (c :: cs), store, s⟩ ⟨.trying x cs, store, w⟩
  /-- The search goes on below the decision. -/
  | descended {store d : Store} {s u : State σ} {x : Variable} {c : Colour} {cs : List Colour}
      (consistent : s.assignment.isConsistent p.graph x c = .ok true)
      (attempted : attempt p store x c s = .ok (some d, u)) :
      Passes p ⟨.trying x (c :: cs), store, s⟩ ⟨.node, d, u⟩
  /-- The search below has failed, and the decision is taken back. -/
  | returned {store d : Store} {s u v w : State σ} {x : Variable} {c : Colour} {cs : List Colour}
      {inner : List Assignment} (consistent : s.assignment.isConsistent p.graph x c = .ok true)
      (attempted : attempt p store x c s = .ok (some d, u))
      (below : Explores p .node d u inner false v) (retracted : retract x c v = .ok w) :
      Passes p ⟨.trying x (c :: cs), store, s⟩ ⟨.trying x cs, store, w⟩

end GraphSearch.Colouring.Search
