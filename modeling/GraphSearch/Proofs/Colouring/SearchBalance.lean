import GraphSearch.Proofs.Colouring.AnySelectors
import GraphSearch.Proofs.Colouring.Handshake
import GraphSearch.Proofs.Colouring.TriedAssignments

/-!
# The counts of a search balance

Counting is spread over two records and several branches of a search. What one stretch of a search
adds to the counts is said once (`Search.Tally`), so that stretches can be put together
(`Tally.trans`), and there are three of them: a decision that propagation lets stand, one that it
does not, which is taken back at once, and taking a decision back. By induction on what is tried the
whole of a search is such a stretch (`Explores.tally`), whatever the selectors are.

Calls of a search that share their counts and the memory of their selectors are a `Session`. Each of
them may be given an assignment and domains of its own. The balance holds after any number of them
(`session_counts_balance`).
-/

namespace GraphSearch.Colouring

/-! ### What a propagation counts -/

namespace Propagation

variable {g : Graph} {pending : List Arc} {s : Store} {c : Statistics} {o : Outcome}

/-- Working the list off takes each arc of it, unless a domain is emptied, and counts that. -/
theorem counts_of_drain (h : drain g pending s c = .ok o) :
    o.statistics.calls = c.calls ∧
      o.statistics.wipeouts = c.wipeouts + (if o.wipedOut = none then 0 else 1) ∧
      c.arcsProcessed ≤ o.statistics.arcsProcessed ∧
      (o.wipedOut = none → c.arcsProcessed + pending.length ≤ o.statistics.arcsProcessed) := by
  induction pending, s, c using drain.induct with
  | case1 s c =>
    rw [drain] at h
    obtain rfl := Except.ok.inj h
    exact ⟨rfl, rfl, Nat.le_refl _, fun _ ↦ Nat.le_refl _⟩
  | case2 s c a rest e he => cases (drain_of_revise_error he rest c).symm.trans h
  | case3 s c a rest t hrevise ih =>
    rw [drain_of_revise_zero hrevise] at h
    obtain ⟨hcalls, hwipeouts, hle, harcs⟩ := ih h
    simp only [Statistics.revised] at hcalls hwipeouts hle harcs
    refine ⟨hcalls, hwipeouts, by omega, fun hnone ↦ ?_⟩
    have := harcs hnone
    rw [List.length_cons]
    omega
  | case4 s c a rest n t hrevise c' ih =>
    rw [drain_of_revise_pos hrevise] at h
    obtain ⟨b, -, h⟩ := bind_eq_ok_iff.1 h
    cases b with
    | true =>
      obtain rfl := Except.ok.inj h
      exact ⟨rfl, rfl, Nat.le_succ _, fun hnone ↦ by cases hnone⟩
    | false =>
      -- The arcs that come back are only put behind those that were on the list.
      obtain ⟨row, -, h⟩ := bind_eq_ok_iff.1 h
      obtain ⟨hcalls, hwipeouts, hle, harcs⟩ := ih row h
      simp only [c', Statistics.revised, List.length_append] at hcalls hwipeouts hle harcs
      refine ⟨hcalls, hwipeouts, by omega, fun hnone ↦ ?_⟩
      have := harcs hnone
      rw [List.length_cons]
      omega

/-- A propagation is counted, and so are an emptied domain and the arcs. -/
theorem counts_of_propagate (h : propagate g s c = .ok o) :
    o.statistics.calls = c.calls + 1 ∧
      o.statistics.wipeouts = c.wipeouts + (if o.wipedOut = none then 0 else 1) ∧
      c.arcsProcessed ≤ o.statistics.arcsProcessed ∧
      (o.wipedOut = none → c.arcsProcessed + g.arcs.length ≤ o.statistics.arcsProcessed) :=
  counts_of_drain h

end Propagation

namespace Search

variable {σ : Type} {p : Problem σ} {stage : Stage} {store : Store} {s t u v w : State σ}
  {x : Variable} {c : Colour} {tried tried' : List Assignment} {found : Bool}

/-! ### What a stretch of a search adds to the counts -/

/-- The largest number of decisions of these assignments, or the given number if that is larger. -/
def deepest (least : Nat) (tried : List Assignment) : Nat :=
  (tried.map Assignment.count).foldl max least

/-- What is added to the counts from `s` to `t`, where these assignments are tried. -/
structure Tally (p : Problem σ) (s : State σ) (tried : List Assignment) (t : State σ) : Prop where
  /-- Each of them is a node. -/
  nodes : t.statistics.nodes = s.statistics.nodes + tried.length
  /-- For each of them the store is copied. -/
  storeCopies : t.statistics.storeCopies = s.statistics.storeCopies + tried.length
  /-- Each of them is propagated. -/
  calls : t.statistics.propagation.calls = s.statistics.propagation.calls + tried.length
  /-- A decision that is not taken back stands. -/
  standing : t.statistics.nodes + s.statistics.backtracks + s.assignment.count =
    s.statistics.nodes + t.statistics.backtracks + t.assignment.count
  /-- Where a domain is emptied, the decision is taken back. -/
  wipeouts : t.statistics.propagation.wipeouts + s.statistics.backtracks ≤
    s.statistics.propagation.wipeouts + t.statistics.backtracks
  /-- The depth is that of the deepest of them, if it was not larger before. -/
  peakDepth : t.statistics.peakDepth = deepest s.statistics.peakDepth tried
  /-- Each propagation that empties no domain takes every arc. -/
  arcs : s.statistics.propagation.arcsProcessed + p.graph.arcs.length *
      (t.statistics.propagation.calls + s.statistics.propagation.wipeouts) ≤
    t.statistics.propagation.arcsProcessed + p.graph.arcs.length *
      (s.statistics.propagation.calls + t.statistics.propagation.wipeouts)

namespace Tally

/-- Nothing is added where the counts and the number of decisions stay the same. -/
theorem refl (hstatistics : t.statistics = s.statistics)
    (hcount : t.assignment.count = s.assignment.count) : Tally p s [] t := by
  constructor <;> rw [hstatistics]
  · rfl
  · rfl
  · rfl
  · rw [hcount]
  · rfl

/-- **Stretches are put together.** -/
theorem trans (h : Tally p s tried u) (h' : Tally p u tried' t) :
    Tally p s (tried ++ tried') t where
  nodes := by
    rw [h'.nodes, h.nodes, List.length_append, Nat.add_assoc]
  storeCopies := by
    rw [h'.storeCopies, h.storeCopies, List.length_append, Nat.add_assoc]
  calls := by
    rw [h'.calls, h.calls, List.length_append, Nat.add_assoc]
  standing := by
    have := h.standing
    have := h'.standing
    omega
  wipeouts := by
    have := h.wipeouts
    have := h'.wipeouts
    omega
  peakDepth := by
    rw [h'.peakDepth, h.peakDepth, deepest, deepest, deepest, List.map_append, List.foldl_append]
  arcs := by
    have := h.arcs
    have := h'.arcs
    linarith

end Tally

/-- What an attempt counts. -/
theorem statistics_of_attempt {b : Option Store} (h : attempt p store x c s = .ok (b, u)) :
    ∃ d o, propagate p.graph d s.statistics.propagation = .ok o ∧
      u.statistics =
        { s.statistics.tried u.assignment.count with propagation := o.statistics } ∧
      (b = none ↔ o.wipedOut ≠ none) := by
  rw [attempt_eq] at h
  obtain ⟨a, -, h⟩ := bind_eq_ok_iff.1 h
  obtain ⟨d, -, h⟩ := bind_eq_ok_iff.1 h
  obtain ⟨o, ho, h⟩ := bind_eq_ok_iff.1 h
  obtain ⟨rfl, rfl⟩ := Prod.mk.inj (Except.ok.inj h)
  refine ⟨d, o, ho, rfl, ?_⟩
  cases o.wipedOut <;> simp

theorem count_of_attempt {b : Option Store} (h : attempt p store x c s = .ok (b, u)) :
    u.assignment.count = s.assignment.count + 1 := by
  rw [Assignment.count, (Assignment.of_assign_eq_ok (of_attempt_eq_ok h).1).2.2.2.1]
  rfl

/-- What taking a decision back counts. -/
theorem of_retract_eq_ok (h : retract x c v = .ok w) :
    w.statistics = v.statistics.undone ∧ w.assignment.count + 1 = v.assignment.count := by
  obtain ⟨a, hundo, rfl⟩ := retract_eq_ok_iff.1 h
  refine ⟨rfl, ?_⟩
  show a.count + 1 = v.assignment.count
  cases hdecided : v.assignment.decided with
  | nil =>
    rw [Assignment.undo, hdecided] at hundo
    cases hundo
  | cons y earlier =>
    rw [Assignment.count, (Assignment.of_undo_eq_ok hundo hdecided).2.1, Assignment.count, hdecided]
    rfl

namespace Tally

/-- A decision that propagation lets stand. -/
theorem attempted {d : Store} (h : attempt p store x c s = .ok (some d, u)) :
    Tally p s [u.assignment] u := by
  obtain ⟨_, o, ho, hstatistics, hnone⟩ := statistics_of_attempt h
  obtain ⟨hcalls, hwipeouts, -, harcs⟩ := Propagation.counts_of_propagate ho
  have hwiped : o.wipedOut = none := by
    by_contra hne
    cases hnone.2 hne
  have hcount := count_of_attempt h
  have harcs := harcs hwiped
  rw [if_pos hwiped, Nat.add_zero] at hwipeouts
  constructor <;> rw [hstatistics]
  · rfl
  · rfl
  · exact hcalls
  · simp only [Statistics.tried]
    omega
  · simp only [Statistics.tried]
    omega
  · rfl
  · simp only [hcalls, hwipeouts]
    linarith

/-- A decision that is taken back. -/
theorem retracted (h : retract x c v = .ok w) : Tally p v [] w := by
  obtain ⟨hstatistics, hcount⟩ := of_retract_eq_ok h
  constructor <;> rw [hstatistics] <;> simp only [Statistics.undone]
  · rfl
  · rfl
  · rfl
  · omega
  · omega
  · rfl
  · exact Nat.le_refl _

/-- A decision that empties a domain, and is taken back. -/
theorem wiped (h : attempt p store x c s = .ok (none, u)) (hretract : retract x c u = .ok w) :
    Tally p s [u.assignment] w := by
  obtain ⟨_, o, ho, hstatistics, hnone⟩ := statistics_of_attempt h
  obtain ⟨hcalls, hwipeouts, harcs, -⟩ := Propagation.counts_of_propagate ho
  obtain ⟨hundone, hback⟩ := of_retract_eq_ok hretract
  have hcount := count_of_attempt h
  rw [if_neg (hnone.1 rfl)] at hwipeouts
  constructor <;> rw [hundone, Statistics.undone, hstatistics]
  · rfl
  · rfl
  · exact hcalls
  · simp only [Statistics.tried]
    omega
  · simp only [Statistics.tried]
    omega
  · rfl
  · simp only [hcalls, hwipeouts]
    linarith

end Tally

/-- **What is tried is what is counted**, with any selectors. -/
theorem Explores.tally (h : Explores p stage store s tried found t) : Tally p s tried t := by
  induction h with
  | complete _ => exact .refl rfl rfl
  | givenUp _ _ _ => exact .refl rfl rfl
  | @branched store s t r x cs m tried found _ _ _ _ _ ih =>
    have hselected : Tally p s [] { s.selected r with memory := m } := .refl rfl rfl
    exact hselected.trans ih
  | exhausted => exact .refl rfl rfl
  | skipped _ _ ih => exact ih
  | wiped _ attempted retracted _ ih => exact (Tally.wiped attempted retracted).trans ih
  | failed _ attempted _ retracted _ ihbelow ih =>
    exact (Tally.attempted attempted).trans (ihbelow.trans ((Tally.retracted retracted).trans ih))
  | succeeded _ attempted _ ih => exact (Tally.attempted attempted).trans ih

/-- A search takes back no decision that it was given. -/
theorem Explores.count_le (h : Explores p stage store s tried found t) :
    s.assignment.count ≤ t.assignment.count := by
  cases found with
  | false => exact (congrArg Assignment.count (h.effect.1 rfl)).ge
  | true =>
    obtain ⟨hchain, -⟩ := h.effect.2 rfl
    generalize t.assignment = b at hchain
    induction hchain with
    | refl => exact Nat.le_refl _
    | tail _ hlast ih =>
      obtain ⟨x, c, -, hassign⟩ := hlast
      refine ih.trans ?_
      rw [Assignment.count, Assignment.count, (Assignment.of_assign_eq_ok hassign).2.2.2.1]
      exact Nat.le_succ _

/-! ### Several calls -/

theorem deepest_le {n least : Nat} (hleast : least ≤ n) (h : ∀ a ∈ tried, a.count ≤ n) :
    deepest least tried ≤ n := by
  induction tried generalizing least with
  | nil => exact hleast
  | cons a tried ih =>
    obtain ⟨ha, htried⟩ := List.forall_mem_cons.1 h
    exact ih (Nat.max_le.2 ⟨hleast, ha⟩) htried

/-- What comes of some calls of one search, one after another, each with domains and an assignment
of its own: the assignments that were given, those that were tried, and the state that is left. The
counts and the memory of the selectors go from call to call. -/
inductive Session (p : Problem σ) (m : σ) :
    List Assignment → List Assignment → State σ → Prop where
  /-- There has been no call. -/
  | opened (a : Assignment) : Session p m [] [] { assignment := a, memory := m }
  /-- There is one call more, and it comes to an answer. -/
  | searched {given tried tried' : List Assignment} {s t : State σ} {a : Assignment} {n : Nat}
      {store : Store} {found : Bool} (earlier : Session p m given tried s) (arises : a.Arises n)
      (ran : run p store { s with assignment := a } = .ok (found, t))
      (explores : Explores p .node store { s with assignment := a } tried' found t) :
      Session p m (given ++ [a]) (tried ++ tried') t

/-- How the counts of a session go together. -/
structure Balanced (p : Problem σ) (tried : List Assignment) (c : Statistics) : Prop where
  /-- Nodes are the assignments that were tried. -/
  nodes : c.nodes = tried.length
  /-- At each node a store is copied. -/
  storeCopies : c.storeCopies = c.nodes
  /-- At each node there is a propagation. -/
  calls : c.propagation.calls = c.nodes
  /-- Where a domain is emptied, a decision is taken back. -/
  wipeouts_le : c.propagation.wipeouts ≤ c.backtracks
  /-- Only what was tried is taken back. -/
  backtracks_le : c.backtracks ≤ c.nodes
  /-- The depth is the largest number of decisions right after one of them was tried. -/
  peakDepth : c.peakDepth = deepest 0 tried
  /-- Each propagation that empties no domain takes both arcs of every edge. -/
  arcs : 2 * p.graph.edgeCount * (c.propagation.calls - c.propagation.wipeouts) ≤
    c.propagation.arcsProcessed

variable {m : σ} {given : List Assignment} {a : Assignment}

/-- What is tried in a session comes from coherent assignments of the sizes that were given. -/
theorem Session.coherent (h : Session p m given tried s) :
    ∀ b ∈ tried, b.Coherent ∧ ∃ a ∈ given, b.colours.size = a.colours.size := by
  induction h with
  | opened _ => exact fun b hb ↦ absurd hb List.not_mem_nil
  | @searched given tried tried' s t a n store found earlier arises ran explores ih =>
    intro b hb
    rcases List.mem_append.1 hb with hb | hb
    · obtain ⟨hcoherent, a', ha', hsize⟩ := ih b hb
      exact ⟨hcoherent, a', List.mem_append_left _ ha', hsize⟩
    · obtain ⟨hcoherent, hsize⟩ := explores.coherent arises.coherent.1 b hb
      exact ⟨hcoherent, a, List.mem_append_right _ List.mem_cons_self, hsize⟩

/-- **One call more keeps the balance.** -/
theorem Balanced.call (h : Balanced p tried s.statistics)
    (htally : Tally p { s with assignment := a } tried' t) (hcount : a.count ≤ t.assignment.count)
    (harcs : p.graph.arcs.length = 2 * p.graph.edgeCount) :
    Balanced p (tried ++ tried') t.statistics := by
  obtain ⟨hnodes, hcopies, hcalls, hstanding, hwipeouts, hpeak, htaken⟩ := htally
  dsimp only at hnodes hcopies hcalls hstanding hwipeouts hpeak htaken
  have hle := h.wipeouts_le
  have hundone := h.backtracks_le
  have hsnodes := h.nodes
  have hscalls := h.calls
  have htaken' := h.arcs
  rw [harcs] at htaken
  rw [Nat.mul_sub, Nat.sub_le_iff_le_add] at htaken'
  constructor
  · rw [hnodes, hsnodes, List.length_append]
  · rw [hcopies, hnodes, h.storeCopies]
  · rw [hcalls, hnodes, hscalls]
  · omega
  · omega
  · rw [hpeak, h.peakDepth, deepest, deepest, deepest, List.map_append, List.foldl_append]
  · rw [Nat.mul_sub, Nat.sub_le_iff_le_add]
    linarith

/-- **A session balances.** -/
theorem Session.balanced (harcs : p.graph.arcs.length = 2 * p.graph.edgeCount)
    (h : Session p m given tried s) : Balanced p tried s.statistics := by
  induction h with
  | opened a => exact ⟨rfl, rfl, rfl, Nat.le_refl 0, Nat.le_refl 0, rfl, Nat.le_refl 0⟩
  | searched _ _ _ explores ih => exact ih.call explores.tally explores.count_le harcs

/-- **The counts of a search balance**, in every graph, with any selectors and in any number of
calls that come to an answer. Each further call continues the session. It adds to the nodes that
were not taken back the number of decisions that it leaves beyond those that it was given, and it
leaves none if it fails. A propagation that empties no domain takes both arcs of every edge. -/
theorem session_counts_balance (calls : List Declaration) {σ : Type} (strategy : Strategy σ)
    (narrow : Bool) {m : σ} {given tried : List Assignment} {s : State σ}
    (h : Session ⟨Graph.declared calls, strategy, narrow⟩ m given tried s) :
    Balanced ⟨Graph.declared calls, strategy, narrow⟩ tried s.statistics ∧
      ((∀ a ∈ given, a.colours.size = (Graph.declared calls).size) →
        s.statistics.peakDepth ≤ (Graph.declared calls).size) ∧
      (∀ a n store found t, a.Arises n →
        run ⟨Graph.declared calls, strategy, narrow⟩ store { s with assignment := a } =
          .ok (found, t) →
        (∃ tried', Session ⟨Graph.declared calls, strategy, narrow⟩ m (given ++ [a])
          (tried ++ tried') t) ∧
          a.count ≤ t.assignment.count ∧
          t.statistics.nodes - t.statistics.backtracks =
            s.statistics.nodes - s.statistics.backtracks + (t.assignment.count - a.count) ∧
          (found = false → t.assignment = a)) ∧
      ∀ d c o, propagate (Graph.declared calls) d c = .ok o → o.wipedOut = none →
        c.arcsProcessed + 2 * (Graph.declared calls).edgeCount ≤ o.statistics.arcsProcessed := by
  have harcs := Graph.length_arcs_declared calls
  have hbalanced := h.balanced harcs
  refine ⟨hbalanced, fun hsized ↦ ?_, ?_, ?_⟩
  · rw [hbalanced.peakDepth]
    refine deepest_le (Nat.zero_le _) fun b hb ↦ ?_
    obtain ⟨hcoherent, a, ha, hsize⟩ := h.coherent b hb
    have := hcoherent.count_add_free
    have := hsized a ha
    omega
  · intro a n store found t harises hrun
    obtain ⟨tried', hexplores⟩ :=
      exists_explores_of_run (s := { s with assignment := a }) harises.coherent.1 hrun
    have hnext : Session _ m (given ++ [a]) (tried ++ tried') t :=
      .searched h harises hrun hexplores
    have hstanding : t.statistics.nodes + s.statistics.backtracks + a.count =
        s.statistics.nodes + t.statistics.backtracks + t.assignment.count :=
      hexplores.tally.standing
    have hcount : a.count ≤ t.assignment.count := hexplores.count_le
    have hbefore := hbalanced.backtracks_le
    have hafter := (hnext.balanced harcs).backtracks_le
    exact ⟨⟨tried', hnext⟩, hcount, by omega, hexplores.effect.1⟩
  · intro d c o ho hnone
    rw [← harcs]
    exact (Propagation.counts_of_propagate ho).2.2.2 hnone

/-- On an edge, a call with a palette of one colour tries both colours that its selector names and
takes them back. With two colours the next call decides both ends, and its two decisions are what is
added. -/
theorem session_counts_balance_edge :
    ∃ (given tried : List Assignment) (s t : State Unit),
      Session ⟨Graph.declared [.edge 4 5], ⟨.firstOf [1, 0], .always [1, 2]⟩, false⟩ () given tried
        s ∧
      run ⟨Graph.declared [.edge 4 5], ⟨.firstOf [1, 0], .always [1, 2]⟩, false⟩ (.full 2 2)
        { s with assignment := .blank 2 } = .ok (true, t) ∧
      s.statistics.nodes = 2 ∧ s.statistics.peakDepth = deepest 0 tried ∧
      t.statistics.nodes - t.statistics.backtracks =
        s.statistics.nodes - s.statistics.backtracks + 2 := by
  have hfails : run ⟨Graph.declared [.edge 4 5], ⟨.firstOf [1, 0], .always [1, 2]⟩, false⟩
      (.full 2 1) { assignment := .blank 2, memory := () } =
        .ok (false,
          { assignment := .blank 2
            memory := ()
            statistics := ⟨2, 2, 2, 1, ⟨2, 2, 2, 2, 2⟩⟩
            events := #[.trying 1 1 1, .wipedOut 0 1, .trying 1 1 2, .wipedOut 0 1] }) := by
    cbv
  have hsucceeds : run ⟨Graph.declared [.edge 4 5], ⟨.firstOf [1, 0], .always [1, 2]⟩, false⟩
      (.full 2 2)
      { assignment := .blank 2
        memory := ()
        statistics := ⟨2, 2, 2, 1, ⟨2, 2, 2, 2, 2⟩⟩
        events := #[.trying 1 1 1, .wipedOut 0 1, .trying 1 1 2, .wipedOut 0 1] } =
        .ok (true,
          { assignment := ⟨.ofList [some 2, some 1], [0, 1]⟩
            memory := ()
            statistics := ⟨4, 2, 4, 2, ⟨4, 2, 6, 2, 2⟩⟩
            events := #[.trying 1 1 1, .wipedOut 0 1, .trying 1 1 2, .wipedOut 0 1, .trying 1 1 1,
              .trying 2 0 2] }) := by
    cbv
  obtain ⟨_, hexplores⟩ := exists_explores_of_run (Assignment.coherent_blank 2) hfails
  have hsession := (Session.opened (.blank 2)).searched .blank hfails hexplores
  obtain ⟨hbalanced, -, hnext, -⟩ := session_counts_balance [.edge 4 5]
    ⟨.firstOf [1, 0], .always [1, 2]⟩ false hsession
  obtain ⟨-, -, hadded, -⟩ := hnext (.blank 2) 2 (.full 2 2) true _ .blank hsucceeds
  exact ⟨_, _, _, _, hsession, hsucceeds, rfl, hbalanced.peakDepth, hadded⟩

end Search

end GraphSearch.Colouring
