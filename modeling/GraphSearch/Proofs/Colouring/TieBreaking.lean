import GraphSearch.Colouring.TieBreaker
import Mathlib.Data.List.Forall2
import Mathlib.Data.Nat.Basic
import Mathlib.Order.RelClasses

/-!
# Breaking ties in every order of scores

A tie-breaker is handed any number of variables, is asked for one, is handed more, is asked again,
and so on. This module says what it answers each time, for every such sequence of calls and every
order of the scores that is irreflexive and transitive. Scores may be incomparable, as a score that
is not a number is to all others.

`rounds` cuts the calls at the selections: it has one list for each, of what has been considered
since the one before it. `answers` lists what the selections answer. `picks_of_calls` matches the
two, one by one: there is no answer exactly if the round is empty, and otherwise the answer is the
best of its round (`Best`).

All rests on the step that makes a newcomer the leader, `Best.lead`. It has been compared with the
leader alone. If an earlier one stood below the newcomer, it would by transitivity have stood below
that leader already.
-/

namespace GraphSearch.Colouring.TieBreaker

universe u

variable {α : Type u}

/-! ### Calls -/

/-- A call of a tie-breaker. -/
inductive Call (α : Type u) where
  /-- A variable is considered, with its score. -/
  | consider (x : Variable) (score : α)
  /-- A variable is to be selected. -/
  | select
deriving Repr, DecidableEq

/-- What the selections among the calls answer, in their order. -/
def answers (below : α → α → Bool) : TieBreaker α → List (Call α) → List (Option Variable)
  | _, [] => []
  | t, .consider x score :: calls => answers below (t.consider below x score) calls
  | t, .select :: calls => t.select.1 :: answers below t.select.2 calls

/-- What has been considered before each selection among the calls, since the selection before it.
Before the first call `ps` has been considered. -/
def rounds : List (Variable × α) → List (Call α) → List (List (Variable × α))
  | _, [] => []
  | ps, .consider x score :: calls => rounds (ps ++ [(x, score)]) calls
  | ps, .select :: calls => ps :: rounds [] calls

/-! ### The best of a round -/

/-- Of all that has been considered, `m` is a right choice. -/
structure Best (below : α → α → Bool) (ps : List (Variable × α)) (m : Variable × α) : Prop where
  /-- It has been considered. -/
  mem : m ∈ ps
  /-- No score that has been considered is below its score. -/
  least : ∀ p ∈ ps, below p.2 m.2 = false
  /-- In a connected order, as total orders are, it is below all that have been considered before
  it: it comes first among those with the lowest score. -/
  first : IsOrderConnected α (below · · = true) →
    ∃ front back, ps = front ++ m :: back ∧ ∀ p ∈ front, below m.2 p.2 = true

/-- The answer is right for a round in which `ps` has been considered. -/
structure Picks (below : α → α → Bool) (ps : List (Variable × α)) (answer : Option Variable) :
    Prop where
  /-- There is no answer exactly if nothing has been considered. -/
  eq_none_iff : answer = none ↔ ps = []
  /-- An answer is a right choice, with some score that it has been considered with. -/
  best : ∀ x, answer = some x → ∃ score, Best below ps (x, score)

variable {below : α → α → Bool} {ps : List (Variable × α)} {m p : Variable × α}

namespace Best

theorem singleton (hirrefl : ∀ a, below a a = false) (m : Variable × α) : Best below [m] m where
  mem := List.mem_singleton_self m
  least p hp := by
    rw [List.mem_singleton.1 hp]
    exact hirrefl m.2
  first _ := ⟨[], [], rfl, nofun⟩

/-- A choice remains right when a newcomer is not below it. -/
theorem keep (h : Best below ps m) (hp : below p.2 m.2 = false) : Best below (ps ++ [p]) m where
  mem := List.mem_append_left _ h.mem
  least q hq := by
    rcases List.mem_append.1 hq with hq | hq
    · exact h.least q hq
    · rwa [List.mem_singleton.1 hq]
  first hconn := by
    obtain ⟨front, back, hps, hfront⟩ := h.first hconn
    exact ⟨front, back ++ [p], by rw [hps, List.append_assoc, List.cons_append], hfront⟩

/-- A newcomer below a right choice is a right choice. -/
theorem lead [hstrict : IsStrictOrder α (below · · = true)] (h : Best below ps m)
    (hp : below p.2 m.2 = true) : Best below (ps ++ [p]) p where
  mem := List.mem_append_right _ (List.mem_singleton_self p)
  least q hq := by
    refine Bool.eq_false_iff.2 fun hqp ↦ ?_
    rcases List.mem_append.1 hq with hq | hq
    · have hqm : below q.2 m.2 = true := hstrict.trans q.2 p.2 m.2 hqp hp
      exact Bool.eq_false_iff.1 (h.least q hq) hqm
    · rw [List.mem_singleton.1 hq] at hqp
      exact hstrict.irrefl p.2 hqp
  first hconn := by
    refine ⟨ps, [], rfl, fun q hq ↦ ?_⟩
    -- In a connected order what is not below `m` is above all that `m` is above.
    have hpq : below p.2 q.2 = true ∨ below q.2 m.2 = true := hconn.conn p.2 q.2 m.2 hp
    exact hpq.resolve_right (Bool.eq_false_iff.1 (h.least q hq))

end Best

/-! ### The leader -/

/-- The tie-breaker has the right leader when `ps` has been considered in the present round. -/
inductive Leads (below : α → α → Bool) : List (Variable × α) → TieBreaker α → Prop where
  /-- Nothing has been considered, and nothing leads. -/
  | nothing : Leads below [] {}
  /-- The leader is a right choice. -/
  | best {ps : List (Variable × α)} {m : Variable × α} (h : Best below ps m) :
      Leads below ps ⟨some m⟩

namespace Leads

variable {t : TieBreaker α}

/-- **One newcomer.** The leader stays right, whether it is replaced or not. -/
theorem consider [hstrict : IsStrictOrder α (below · · = true)] (h : Leads below ps t)
    (x : Variable) (score : α) :
    Leads below (ps ++ [(x, score)]) (t.consider below x score) := by
  match h with
  | nothing => exact best (.singleton (fun a ↦ Bool.eq_false_iff.2 (hstrict.irrefl a)) (x, score))
  | best (m := m) h =>
    show Leads below (ps ++ [(x, score)]) (if below score m.2 then ⟨some (x, score)⟩ else ⟨some m⟩)
    split
    case isTrue hlt => exact best (h.lead hlt)
    case isFalse hge => exact best (h.keep (Bool.eq_false_iff.2 hge))

/-- The right leader is the right answer. -/
theorem picks (h : Leads below ps t) : Picks below ps t.select.1 := by
  match h with
  | nothing => exact ⟨⟨fun _ ↦ rfl, fun _ ↦ rfl⟩, nofun⟩
  | best (m := m) h =>
    refine ⟨⟨nofun, fun hnil ↦ absurd h.mem (hnil ▸ List.not_mem_nil)⟩, fun x hx ↦ ?_⟩
    obtain rfl : m.1 = x := Option.some.inj hx
    exact ⟨m.2, h⟩

/-- From a right leader on, the answers are right round by round. -/
theorem forall₂_rounds_answers [IsStrictOrder α (below · · = true)] (h : Leads below ps t)
    (calls : List (Call α)) :
    List.Forall₂ (Picks below) (rounds ps calls) (answers below t calls) := by
  induction calls generalizing ps t with
  | nil => exact .nil
  | cons call calls ih =>
    match call with
    | .consider x score => exact ih (h.consider x score)
    | .select => exact .cons h.picks (ih .nothing)

end Leads

/-- **Each selection finds a minimum of its round.** The calls are made in any order, the first of
them on a fresh tie-breaker, and the order of the scores is irreflexive and transitive. A selection
answers nothing exactly if nothing has been considered since the one before it, and otherwise a
variable that has been considered since, with a score that no score considered since is below. In a
total order it is the first of those with the lowest score. -/
theorem picks_of_calls (below : α → α → Bool) [IsStrictOrder α (below · · = true)]
    (calls : List (Call α)) :
    List.Forall₂ (Picks below) (rounds [] calls) (answers below {} calls) :=
  Leads.nothing.forall₂_rounds_answers calls

/-- Numbers in their order, and beside them `none`, which is not a number. -/
def belowIfNumbers (m n : Option Nat) : Bool := m.any fun a ↦ n.any fun b ↦ decide (a < b)

theorem belowIfNumbers_eq_true {m n : Option Nat} :
    belowIfNumbers m n = true ↔ ∃ a b, m = some a ∧ n = some b ∧ a < b := by
  simp [belowIfNumbers, Option.any_eq_true]

instance : IsStrictOrder (Option Nat) (belowIfNumbers · · = true) where
  irrefl m hm := by
    obtain ⟨a, b, rfl, hab, hlt⟩ := belowIfNumbers_eq_true.1 hm
    exact absurd hlt (Option.some.inj hab ▸ Nat.lt_irrefl a)
  trans m n k hmn hnk := by
    obtain ⟨a, b, rfl, rfl, hab⟩ := belowIfNumbers_eq_true.1 hmn
    obtain ⟨b', c, hb, rfl, hbc⟩ := belowIfNumbers_eq_true.1 hnk
    obtain rfl : b = b' := Option.some.inj hb
    exact belowIfNumbers_eq_true.2 ⟨a, c, rfl, rfl, Nat.lt_trans hab hbc⟩

/-- Three rounds with scores that need not be numbers, of which the second is empty and the third
keeps what it has seen first. In the order of the numbers, which is total, the first of two ones is
the answer. -/
theorem picks_of_calls_incomparable :
    List.Forall₂ (Picks belowIfNumbers)
        [[(4, some 3), (5, none), (6, some 1)], [], [(7, none), (8, some 0)]]
        [some 6, none, some 7] ∧
      List.Forall₂ (Picks fun m n : Nat ↦ decide (m < n)) [[(4, 3), (5, 1), (6, 1)]] [some 5] ∧
      IsOrderConnected Nat (fun m n ↦ decide (m < n) = true) := by
  have hstrict : IsStrictTotalOrder Nat (fun m n ↦ decide (m < n) = true) := by
    simp only [decide_eq_true_eq]
    infer_instance
  refine ⟨?_, ?_, inferInstance⟩
  · exact picks_of_calls belowIfNumbers [.consider 4 (some 3), .consider 5 none,
      .consider 6 (some 1), .select, .select, .consider 7 none, .consider 8 (some 0), .select]
  · exact picks_of_calls (fun m n : Nat ↦ decide (m < n))
      [.consider 4 3, .consider 5 1, .consider 6 1, .select]

end GraphSearch.Colouring.TieBreaker
