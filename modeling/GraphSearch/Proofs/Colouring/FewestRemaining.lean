import GraphSearch.Colouring.Selection
import GraphSearch.Proofs.Colouring.Decisions
import GraphSearch.Proofs.Colouring.Pruning
import Mathlib.Data.List.MinMax

/-!
# The variable with the fewest colours left

A selector of the fewest remaining colours shows the variables without a colour to its tie-breaker,
one after another, and takes the leader. What a tie-breaker does with a newcomer is the step of
`List.argmin` (`TieBreaker.leader_consider`), so the leader of the empty tie-breaker is the first
entry of the list with the lowest score. `fewestRemaining_eq_ok` says so of a whole selection: it is
one equation for the choice, for what is noticed on the way, and for what is remembered.

What is remembered is nothing. So a selector that has been asked any number of times before, about
whatever contexts, answers as one that is asked for the first time, and its choice is the variable
with the fewest colours left, of those the lowest (`fewestRemaining_selects`). The tables of the
context need to have the size of the graph for that, and nothing else: the graph need not be
symmetric, nor do the decisions have to agree with the colours.
-/

namespace GraphSearch.Colouring

universe u

/-! ### Who leads -/

namespace TieBreaker

variable {α : Type u} (r : α → α → Prop) [DecidableRel r]

/-- The leader after a newcomer is the better of the two, the earlier one if neither is. -/
theorem leader_consider (t : TieBreaker α) (x : Variable) (score : α) :
    (t.consider (fun m n ↦ decide (r m n)) x score).leader =
      List.argAux (fun p q ↦ r p.2 q.2) t.leader (x, score) := by
  obtain ⟨leader⟩ := t
  cases leader with
  | none => rfl
  | some p =>
    show (if decide (r score p.2) = true then (⟨some (x, score)⟩ : TieBreaker α)
      else ⟨some p⟩).leader = if r score p.2 then some (x, score) else some p
    simp only [decide_eq_true_eq, apply_ite leader]

/-- The leader after several newcomers. -/
theorem leader_foldl_consider (ps : List (Variable × α)) (t : TieBreaker α) :
    (ps.foldl (fun t p ↦ t.consider (fun m n ↦ decide (r m n)) p.1 p.2) t).leader =
      ps.foldl (List.argAux fun p q ↦ r p.2 q.2) t.leader := by
  induction ps generalizing t with
  | nil => rfl
  | cons p ps ih => rw [List.foldl_cons, ih, leader_consider, List.foldl_cons]

end TieBreaker

/-- Where the first components ascend, the first pair with the lowest second component is the least
in the order of the second components and then of the first. -/
theorem argmin_eq_some_iff_of_ascending {ps : List (Nat × Nat)}
    (h : ps.Pairwise fun p q ↦ p.1 < q.1) {m : Nat × Nat} :
    ps.argmin Prod.snd = some m ↔
      m ∈ ps ∧ ∀ p ∈ ps, m.2 < p.2 ∨ m.2 = p.2 ∧ m.1 ≤ p.1 := by
  have hleast : ∀ c, ps.argmin Prod.snd = some c → ∀ p ∈ ps, c.2 < p.2 ∨ c.2 = p.2 ∧ c.1 ≤ p.1 := by
    induction h with
    | nil => exact nofun
    | @cons q ps hq _ ih =>
      intro c hc p hp
      rw [List.argmin_cons] at hc
      cases htail : ps.argmin Prod.snd with
      | none =>
        rw [List.argmin_eq_none] at htail
        subst htail
        obtain rfl := List.mem_singleton.1 hp
        obtain rfl : p = c := Option.some.inj hc
        exact Or.inr ⟨rfl, le_rfl⟩
      | some d =>
        rw [htail] at hc
        have hd := List.argmin_mem htail
        dsimp only at hc
        split at hc
        · obtain rfl : d = c := Option.some.inj hc
          rcases List.mem_cons.1 hp with rfl | hp
          · exact Or.inl ‹_›
          · exact ih d htail p hp
        · obtain rfl : q = c := Option.some.inj hc
          rcases List.mem_cons.1 hp with rfl | hp
          · exact Or.inr ⟨rfl, le_rfl⟩
          · have hqp : q.1 < p.1 := hq p hp
            have := ih d htail p hp
            omega
  refine ⟨fun hm ↦ ⟨List.argmin_mem hm, hleast m hm⟩, ?_⟩
  rintro ⟨hm, hbest⟩
  cases hmin : ps.argmin Prod.snd with
  | none =>
    rw [List.argmin_eq_none] at hmin
    exact absurd hm (hmin ▸ List.not_mem_nil)
  | some c =>
    -- Each of the two stands no later than the other.
    have hcm := hleast c hmin m hm
    have hmc := hbest c (List.argmin_mem hmin)
    exact congrArg some (Prod.ext (by omega) (by omega))

/-! ### Contexts -/

namespace Context

/-- The domains and the places for colours are as many as the variables of the graph. -/
structure Sized (ctx : Context) : Prop where
  /-- Every variable has a domain, and nothing else has. -/
  size_store : ctx.store.size = ctx.graph.size
  /-- Every variable has a place for a colour, and nothing else has. -/
  size_assignment : ctx.assignment.colours.size = ctx.graph.size

/-- The variable has no colour yet, and `n` colours are left for it. -/
def Waits (ctx : Context) (x : Variable) (n : Nat) : Prop :=
  x < ctx.graph.size ∧ ctx.assignment.isAssigned x = .ok false ∧ ctx.store.sizeOf x = .ok n

/-- The variables that have no colour yet, in ascending order, each with the number of colours left
for it. -/
def scores (ctx : Context) : List (Variable × Nat) :=
  (ctx.graph.allVariables.filter fun x ↦ !(ctx.assignment.colourAt x).isSome).map fun x ↦
    (x, (ctx.store.coloursAt x).length)

variable {ctx : Context}

theorem mem_allVariables {g : Graph} {x : Variable} : x ∈ g.allVariables ↔ x < g.size :=
  List.mem_range

theorem pairwise_scores (ctx : Context) : ctx.scores.Pairwise fun p q ↦ p.1 < q.1 :=
  List.pairwise_map.2 (List.pairwise_lt_range.filter _)

namespace Sized

variable (h : ctx.Sized) {x : Variable}

include h

theorem isAssigned_eq_ok (hx : x < ctx.graph.size) :
    ctx.assignment.isAssigned x = .ok (ctx.assignment.colourAt x).isSome :=
  Assignment.isAssigned_eq_ok (h.size_assignment ▸ hx)

theorem isUnassigned_eq_ok (hx : x < ctx.graph.size) :
    ctx.isUnassigned x = .ok !(ctx.assignment.colourAt x).isSome := by
  rw [isUnassigned, h.isAssigned_eq_ok hx]
  rfl

theorem sizeOf_eq_ok (hx : x < ctx.graph.size) :
    ctx.store.sizeOf x = .ok (ctx.store.coloursAt x).length := by
  rw [Store.sizeOf, Store.domainOf_eq_ok (h.size_store ▸ hx)]
  rfl

theorem mem_scores {p : Variable × Nat} : p ∈ ctx.scores ↔ ctx.Waits p.1 p.2 := by
  rw [scores, List.mem_map, Waits]
  constructor
  · rintro ⟨x, hx, rfl⟩
    obtain ⟨hx, hnone⟩ := List.mem_filter.1 hx
    have hx := mem_allVariables.1 hx
    refine ⟨hx, ?_, h.sizeOf_eq_ok hx⟩
    rw [h.isAssigned_eq_ok hx, Bool.eq_false_of_not_eq_true' hnone]
  · rintro ⟨hx, hassigned, hsize⟩
    rw [h.isAssigned_eq_ok hx] at hassigned
    rw [h.sizeOf_eq_ok hx] at hsize
    refine ⟨p.1, List.mem_filter.2 ⟨mem_allVariables.2 hx, ?_⟩, ?_⟩
    · rw [Except.ok.inj hassigned]
      rfl
    · rw [Except.ok.inj hsize]

theorem scores_eq_nil_iff :
    ctx.scores = [] ↔ ∀ x < ctx.graph.size, ctx.assignment.isAssigned x = .ok true := by
  rw [scores, List.map_eq_nil_iff, List.filter_eq_nil_iff]
  refine forall_congr' fun x ↦ ?_
  rw [mem_allVariables]
  refine imp_congr_right fun hx ↦ ?_
  rw [h.isAssigned_eq_ok hx, Except.ok.injEq]
  cases (ctx.assignment.colourAt x).isSome <;> simp

end Sized

end Context

/-! ### A selection -/

namespace VariableSelector

variable {ctx : Context}

/-- What a variable without a colour adds to what has been seen. -/
def meet (seen : List Event × Memory) (p : Variable × Nat) : List Event × Memory :=
  (if p.2 = 0 then seen.1 ++ [.emptyDomain p.1] else seen.1,
    seen.2.consider (fun m n ↦ decide (m < n)) p.1 p.2)

theorem foldl_meet (ps : List (Variable × Nat)) (seen : List Event × Memory) :
    ps.foldl meet seen = (seen.1 ++ (ps.filter (·.2 = 0)).map fun p ↦ .emptyDomain p.1,
      ps.foldl (fun t p ↦ t.consider (fun m n ↦ decide (m < n)) p.1 p.2) seen.2) := by
  induction ps generalizing seen with
  | nil => simp
  | cons p ps ih =>
    rw [List.foldl_cons, ih, meet, List.filter_cons]
    by_cases hp : p.2 = 0 <;> simp [hp]

/-- Looking at a variable passes it over if it has a colour. -/
theorem weigh_eq_ok (h : ctx.Sized) {x : Variable} (hx : x < ctx.graph.size)
    (seen : List Event × Memory) :
    weigh ctx seen x = .ok (if !(ctx.assignment.colourAt x).isSome then
      meet seen (x, (ctx.store.coloursAt x).length) else seen) := by
  rw [weigh, h.isUnassigned_eq_ok hx, ok_bind, h.sizeOf_eq_ok hx]
  cases (ctx.assignment.colourAt x).isSome <;> rfl

/-- Going through all variables shows those without a colour to the tie-breaker. -/
theorem foldlM_weigh_eq_ok (h : ctx.Sized) (seen : List Event × Memory) :
    ctx.graph.allVariables.foldlM (weigh ctx) seen = .ok (ctx.scores.foldl meet seen) := by
  rw [foldlM_eq_ok fun x hx ↦ weigh_eq_ok h (Context.mem_allVariables.1 hx), Context.scores,
    List.foldl_map, List.foldl_filter]

/-- **A selection of the fewest remaining colours**: the first variable with the lowest score is
chosen, empty domains are noticed in their order, and nothing is remembered. -/
theorem fewestRemaining_eq_ok (h : ctx.Sized) : fewestRemaining ctx {} =
    .ok ⟨(ctx.scores.argmin Prod.snd).map Prod.fst,
      (ctx.scores.filter (·.2 = 0)).map fun p ↦ .emptyDomain p.1, {}⟩ := by
  have hleader := TieBreaker.leader_foldl_consider (· < ·) ctx.scores {}
  rw [fewestRemaining, foldlM_weigh_eq_ok h, ok_bind, foldl_meet]
  dsimp only [TieBreaker.select]
  rw [hleader]
  rfl

/-- What a selector of the fewest remaining colours may remember: nothing at first, and later what
some selection has left behind, whatever it was shown. -/
inductive Remembered : Memory → Prop where
  /-- The selector has not been asked yet. -/
  | nothing : Remembered {}
  /-- The selector has been asked once more. -/
  | selection {ctx : Context} {m : Memory} {r : Selected Memory} (earlier : Remembered m)
      (selected : fewestRemaining ctx m = .ok r) : Remembered r.memory

/-- Selecting resets the tie-breaker. -/
theorem Remembered.eq_empty {m : Memory} (h : Remembered m) : m = {} := by
  cases h with
  | nothing => rfl
  | selection _ selected =>
    obtain ⟨_, -, hr⟩ := bind_eq_ok_iff.1 selected
    rw [← Except.ok.inj hr]

/-- **The fewest remaining colours are selected, whatever was selected before.** A selector that has
been asked any number of times answers about a context whose tables have the size of the graph as if
it had never been asked. It chooses no variable exactly if all have a colour, and otherwise the one
without a colour for which the fewest are left, the lowest of several. -/
theorem fewestRemaining_selects (ctx : Context) (hctx : ctx.Sized) (m : Memory)
    (hm : Remembered m) :
    ∃ r, fewestRemaining ctx m = .ok r ∧ fewestRemaining ctx {} = .ok r ∧
      (r.choice = none ↔ ∀ x < ctx.graph.size, ctx.assignment.isAssigned x = .ok true) ∧
      ∀ x, r.choice = some x ↔
        ∃ n, ctx.Waits x n ∧ ∀ y k, ctx.Waits y k → n < k ∨ n = k ∧ x ≤ y := by
  obtain rfl := hm.eq_empty
  refine ⟨_, fewestRemaining_eq_ok hctx, fewestRemaining_eq_ok hctx, ?_, fun x ↦ ?_⟩
  · rw [← hctx.scores_eq_nil_iff, Option.map_eq_none_iff, List.argmin_eq_none]
  · have hbest : ∀ n, ctx.scores.argmin Prod.snd = some (x, n) ↔
        ctx.Waits x n ∧ ∀ y k, ctx.Waits y k → n < k ∨ n = k ∧ x ≤ y := by
      intro n
      rw [argmin_eq_some_iff_of_ascending ctx.pairwise_scores, hctx.mem_scores]
      simp only [hctx.mem_scores, Prod.forall]
    simp only [← hbest, Option.map_eq_some_iff, Prod.exists]
    exact exists_comm.trans (by simp)

/-- A star whose ray `1` has a colour. Of the others two have two colours left; the lower one is
chosen, though the selector has been asked about another graph before. -/
theorem fewestRemaining_selects_tied :
    ∃ r, fewestRemaining ⟨.declared [.edge 7 8], .full 2 1, .blank 2⟩ {} = .ok r ∧
      ∃ r', fewestRemaining ⟨.declared [.edge 1 2, .edge 1 3, .edge 1 4],
        ⟨.ofList [⟨[1, 2, 3]⟩, ⟨[2]⟩, ⟨[1, 3]⟩, ⟨[2, 3]⟩]⟩,
        ⟨.ofList [none, some 2, none, none], [1]⟩⟩ r.memory = .ok r' ∧ r'.choice = some 2 := by
  obtain ⟨r, hr, -⟩ := fewestRemaining_selects ⟨.declared [.edge 7 8], .full 2 1, .blank 2⟩
    ⟨rfl, rfl⟩ {} .nothing
  obtain ⟨r', hr', -, -, hchoice⟩ := fewestRemaining_selects
    ⟨.declared [.edge 1 2, .edge 1 3, .edge 1 4],
      ⟨.ofList [⟨[1, 2, 3]⟩, ⟨[2]⟩, ⟨[1, 3]⟩, ⟨[2, 3]⟩]⟩,
      ⟨.ofList [none, some 2, none, none], [1]⟩⟩
    ⟨rfl, rfl⟩ r.memory (.selection .nothing hr)
  refine ⟨r, hr, r', hr', (hchoice 2).2 ⟨2, ⟨by decide, rfl, rfl⟩, ?_⟩⟩
  rintro y k ⟨hy, hassigned, hsize⟩
  have hvariables : ∀ z : Nat, z < 4 → z = 0 ∨ z = 1 ∨ z = 2 ∨ z = 3 := by omega
  rcases hvariables y hy with rfl | rfl | rfl | rfl
  · obtain rfl : 3 = k := Except.ok.inj hsize
    decide
  · cases hassigned
  · obtain rfl : 2 = k := Except.ok.inj hsize
    decide
  · obtain rfl : 2 = k := Except.ok.inj hsize
    decide

end VariableSelector

end GraphSearch.Colouring
