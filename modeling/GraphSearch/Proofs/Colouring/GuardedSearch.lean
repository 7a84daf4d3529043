import GraphSearch.Proofs.Colouring.Solving

/-!
# Searching with another guard

A search tries a colour only if no neighbour has it. Any other guard may stand in the place of that
check, and with `Guard.none`, which lets every colour pass, a search goes without it.

A guard may take the place of the check if it answers as the check does wherever the search passes
(`run_of_agreesAt`): then the two searches are the same to the last detail, with the same answer,
the same counts and the same events, and if one ends in a fault, so does the other.
-/

namespace GraphSearch.Colouring

open Relation

namespace Search

/-- The guard that lets every colour pass. -/
def Guard.none : Guard := fun _ _ _ ↦ .ok true

variable {σ : Type} {guard : Guard} {p : Problem σ} {store : Store} {s : State σ} {x : Variable}

/-- Of the colour that is to be tried at the position the guard says what the check says. -/
def Guard.AgreesAt (guard : Guard) (g : Graph) (v : Position σ) : Prop :=
  ∀ x c cs, v.stage = .trying x (c :: cs) →
    guard v.state.assignment x c = v.state.assignment.isConsistent g x c

/-- Trying colours with the guard is trying them, if what is below is searched alike. -/
theorem tryColours_of_agreesAt {descend : Continuation σ} {n : Nat}
    (hdescend : ∀ d (u : State σ), u.assignment.Coherent → u.assignment.free = n →
      (∀ v, ReflTransGen (Passes p) ⟨.node, d, u⟩ v → guard.AgreesAt p.graph v) →
      descend d u = backtrack p (.consistent p.graph) n d u)
    {cs : List Colour} (hs : s.assignment.Coherent) (hfree : s.assignment.free = n + 1)
    (hagrees : ∀ v, ReflTransGen (Passes p) ⟨.trying x cs, store, s⟩ v →
      guard.AgreesAt p.graph v) :
    tryColours p guard descend store x cs s =
      tryColours p (.consistent p.graph) (backtrack p (.consistent p.graph) n) store x cs s := by
  induction cs generalizing s with
  | nil => rfl
  | cons c cs ih =>
    rw [tryColours, tryColours, hagrees _ .refl x c cs rfl]
    refine bind_congr_of_ok fun consistent hconsistent ↦ ?_
    cases consistent with
    | false => exact ih hs hfree fun v hv ↦ hagrees v (hv.head (.skipped hconsistent))
    | true =>
      refine bind_congr_of_ok ?_
      rintro ⟨branch, u⟩ hattempt
      have hassign := (of_attempt_eq_ok hattempt).1
      -- Once the decision is taken back, the other colours are tried from the same assignment.
      have hrest : ∀ v w : State σ, v.assignment = u.assignment → retract x c v = .ok w →
          Passes p ⟨.trying x (c :: cs), store, s⟩ ⟨.trying x cs, store, w⟩ →
          tryColours p guard descend store x cs w = tryColours p (.consistent p.graph)
            (backtrack p (.consistent p.graph) n) store x cs w := by
        intro v w hv hretract hpasses
        have hw := (assignment_of_retract hattempt hv hretract).1
        exact ih (hw ▸ hs) (hw ▸ hfree) fun v hv ↦ hagrees v (hv.head hpasses)
      cases branch with
      | none =>
        exact bind_congr_of_ok (x := retract x c u) fun w hretract ↦
          hrest u w rfl hretract (.wiped hconsistent hattempt hretract)
      | some d =>
        have hu : u.assignment.free = n := by
          have := hs.free_of_assign hassign
          omega
        have hbelow : descend d u = backtrack p (.consistent p.graph) n d u :=
          hdescend d u (hs.assign hassign) hu fun v hv ↦
            hagrees v (hv.head (.descended hconsistent hattempt))
        dsimp only
        rw [hbelow]
        refine bind_congr_of_ok ?_
        rintro ⟨found, v⟩ hv
        cases found with
        | true => rfl
        | false =>
          obtain ⟨_, hexplores⟩ := exists_explores_of_backtrack (hs.assign hassign) hu hv
          exact bind_congr_of_ok fun w hretract ↦ hrest v w (hexplores.effect.1 rfl) hretract
            (.returned hconsistent hattempt hexplores hretract)

theorem backtrack_of_agreesAt {n : Nat} (hs : s.assignment.Coherent)
    (hfree : s.assignment.free = n)
    (hagrees : ∀ v, ReflTransGen (Passes p) ⟨.node, store, s⟩ v → guard.AgreesAt p.graph v) :
    backtrack p guard n store s = backtrack p (.consistent p.graph) n store s := by
  induction n generalizing store s with
  | zero =>
    have hcomplete := hs.isComplete_iff_free.2 hfree
    rw [backtrack, backtrack, expand, expand, if_pos hcomplete, if_pos hcomplete]
  | succ n ih =>
    have hincomplete := hs.isComplete_eq_false_iff.2 (hfree ▸ Nat.succ_pos n)
    rw [backtrack, backtrack, expand_of_incomplete hincomplete, expand_of_incomplete hincomplete]
    refine bind_congr_of_ok fun r hselected ↦ ?_
    cases hchoice : r.choice with
    | none => rfl
    | some x =>
      dsimp only
      refine bind_congr_of_ok ?_
      rintro ⟨cs, m⟩ hordered
      exact tryColours_of_agreesAt (fun d u hu hn hv ↦ ih hu hn hv) hs hfree fun v hv ↦
        hagrees v (hv.head (.branched hincomplete hselected hchoice hordered))

/-- **A guard may take the place of the check if it answers alike wherever the search passes.** -/
theorem run_of_agreesAt (hs : s.assignment.Coherent)
    (hagrees : ∀ v, ReflTransGen (Passes p) ⟨.node, store, s⟩ v → guard.AgreesAt p.graph v) :
    run p store s guard = run p store s := by
  rw [run, run, backtrack_of_agreesAt hs rfl hagrees]

end Search

/-- The solver comes to the same with a guard with which its search does. -/
theorem solve_of_run_eq {guard : Search.Guard} {g : Graph} {k : Nat} {o : Options}
    (h : Search.run (o.problem g) (.full g.size k) (.root g) guard =
      Search.run (o.problem g) (.full g.size k) (.root g)) :
    solve g k o guard = solve g k o := by
  rw [Options.problem, Search.State.root] at h
  rw [solve, solve, solveWith, solveWith]
  dsimp only
  rw [h]

end GraphSearch.Colouring
