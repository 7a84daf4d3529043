import GraphSearch.Proofs.Route.Ranks

/-!
# Which vertices wait at the same time

With estimates that are not consistent the cost of a vertex may be lowered after others have been
reached by way of it, and for a while their costs are higher than they need be. What is shown here
is that such a vertex then stands in front of them on the frontier: if two vertices wait, and one
lies on the way back from the other, it has the lower rank (`InOrder.before_first`). So when a
vertex is the first on the frontier, nothing on its way back waits (`InOrder.not_waits_of_first`).

A vertex that does not wait may come to wait again, at a lower cost. For the order to be kept then,
no vertex of a lower rank than it had may have been reached by way of it. This is what `Spent`
provides. Among the vertices of a lower rank than a spent one, either none costs less, so that none
can lead to it at a lower cost, or none has been reached by way of it. The alternative is kept while
the edges of a vertex are gone along (`Turn.enter`), where that vertex counts as waiting still.
-/

namespace GraphSearch.Route

open Numeric (Binary64)

theorem Frontier.nodup_insert {f : Frontier} {d : Candidate} (h : f.Nodup) (hd : d ∉ f) :
    (f.insert d).Nodup := by
  induction f with
  | nil => exact List.nodup_singleton d
  | cons e rest ih =>
    obtain ⟨he, hrest⟩ := List.nodup_cons.1 h
    unfold Frontier.insert
    split
    · refine List.nodup_cons.2 ⟨fun hmem ↦ ?_, ih hrest fun hmem ↦ hd (List.mem_cons_of_mem e hmem)⟩
      rcases Frontier.mem_insert.1 hmem with rfl | hmem
      · exact hd List.mem_cons_self
      · exact he hmem
    · exact List.nodup_cons.2 ⟨hd, h⟩

namespace Exploration

variable {calls : List Addition} {p : Problem} {r : Arrivals} {f : Frontier} {c u v x y z : Vertex}
  {g j k : Nat} {w : UInt32}

/-! ### Vertices that wait -/

/-- The vertex, reached at the cost `k`, is on the frontier with the priority of that cost. -/
def Waits (p : Problem) (r : Arrivals) (f : Frontier) (v : Vertex) (k : Nat) : Prop :=
  r.Reaches v k ∧ ⟨v, p.priority v k⟩ ∈ f

/-- The vertex waits, or its edges are just being gone along. -/
def Live (p : Problem) (busy : Option Vertex) (r : Arrivals) (f : Frontier) (v : Vertex) (k : Nat) :
    Prop :=
  Waits p r f v k ∨ busy = some v ∧ r.Reaches v k

/-- What is known of a vertex that does not wait: among the live vertices of a lower rank either
none costs less, or none has been reached by way of it. -/
def Spent (p : Problem) (busy : Option Vertex) (r : Arrivals) (f : Frontier) (y : Vertex)
    (k : Nat) : Prop :=
  (∀ z j, Live p busy r f z j → p.rank z j < p.rank y k → k ≤ j) ∨
    ∀ z j, Live p busy r f z j → p.rank z j < p.rank y k → ¬r.Before z y

/-- The order in which vertices wait. -/
structure InOrder (p : Problem) (busy : Option Vertex) (r : Arrivals) (f : Frontier) : Prop where
  /-- No candidate is on the frontier twice. -/
  nodup : f.Nodup
  /-- Of two vertices that wait, one that lies on the way back from the other has the lower rank. -/
  before_first : ∀ z u j k, r.ProperlyBefore z u → Waits p r f z j → Waits p r f u k →
    p.rank u k < p.rank z j
  /-- The vertices that do not wait are spent. -/
  spent : ∀ y k, r.Reaches y k → ¬Waits p r f y k → Spent p busy r f y k

/-- What holds besides while the edges of `c`, which has been reached at the cost `g`, are gone
along. -/
structure Turn (p : Problem) (c : Vertex) (g : Nat) (r : Arrivals) (f : Frontier) : Prop where
  /-- The vertices that wait are in order. -/
  inOrder : InOrder p (some c) r f
  /-- Neither `c` waits nor anything on the way back from it. -/
  before : ∀ u k, r.Before c u → ¬Waits p r f u k
  /-- A vertex of a lower rank has just been reached by way of `c`. -/
  fresh : ∀ z j, Waits p r f z j → p.rank c g ≤ p.rank z j ∨ r.Via z c

theorem waits_enter (hx : x ≠ p.start) :
    Waits p (r.enter x k c) (f.insert (p.candidate x k)) z j ↔
      z = x ∧ j = k ∨ z ≠ x ∧ Waits p r f z j := by
  unfold Waits
  rw [Problem.candidate_eq hx, Arrivals.reaches_enter, Frontier.mem_insert]
  constructor
  · rintro ⟨hz | ⟨hz, hreach⟩, hmem⟩
    · exact Or.inl hz
    · rcases hmem with heq | hmem
      · exact absurd (congrArg Candidate.vertex heq) hz
      · exact Or.inr ⟨hz, hreach, hmem⟩
  · rintro (⟨rfl, rfl⟩ | ⟨hz, hreach, hmem⟩)
    · exact ⟨Or.inl ⟨rfl, rfl⟩, Or.inl rfl⟩
    · exact ⟨Or.inr ⟨hz, hreach⟩, Or.inr hmem⟩

theorem Live.reaches {busy : Option Vertex} (h : Live p busy r f v k) : r.Reaches v k := by
  rcases h with hwaits | ⟨-, hreach⟩
  · exact hwaits.1
  · exact hreach

/-- A vertex of a lower rank is another one, so a way back from it takes a step. -/
theorem Live.properlyBefore {busy : Option Vertex} (h : Live p busy r f z j)
    (hlt : p.rank z j < p.rank y k) (hy : r.Reaches y k) (hbefore : r.Before z y) :
    r.ProperlyBefore z y := by
  refine hbefore.properly ?_
  rintro rfl
  obtain rfl := h.reaches.unique hy
  exact Nat.lt_irrefl _ hlt

/-- While the edges of `c` are gone along, a vertex of at most its rank is spent: all live vertices
of a lower rank have just been reached by way of `c`. So if that vertex lies on the way back from
`c`, they cost at least as much, and otherwise they have not been reached by way of it. -/
theorem spent_of_rank_le (h : Underway calls p c g r f)
    (hfresh : ∀ z j, Waits p r f z j → p.rank c g ≤ p.rank z j ∨ r.Via z c) (hy : r.Reaches y k)
    (hrank : p.rank y k ≤ p.rank c g) : Spent p (some c) r f y k := by
  have hvia : ∀ z j, Live p (some c) r f z j → p.rank z j < p.rank y k → r.Via z c := by
    rintro z j (hwaits | ⟨hbusy, hreach⟩) hlt
    · rcases hfresh z j hwaits with hle | hvia
      · omega
      · exact hvia
    · obtain rfl := Option.some.inj hbusy
      obtain rfl := hreach.unique h.current
      omega
  by_cases hcy : r.Before c y
  · left
    intro z j hz hlt
    have hkg := h.rooted.le_of_before hcy h.current hy
    obtain ⟨i, w, j', hi, -, hz', hle⟩ := h.rooted.edge z c (hvia z j hz hlt)
    obtain rfl := hi.unique h.current
    obtain rfl := hz.reaches.unique hz'
    omega
  · right
    intro z j hz hlt hbefore
    exact hcy ((hz.properlyBefore hlt hy hbefore).of_via (hvia z j hz hlt))

/-! ### Going along an edge -/

namespace Turn

variable (hexact : Exact calls p) (hunderway : Underway calls p c g r f) (h : Turn p c g r f)
  (hbetter : ∀ i, r.Reaches x i → g + w.toNat < i)

include hunderway hbetter

theorem not_before_self : ¬r.Before c x :=
  hunderway.rooted.not_before_of_better hunderway.current hbetter

theorem waits_enter_iff {z : Vertex} {j : Nat} :
    Waits p (r.enter x (g + w.toNat) c) (f.insert (p.candidate x (g + w.toNat))) z j ↔
      z = x ∧ j = g + w.toNat ∨ z ≠ x ∧ Waits p r f z j :=
  waits_enter (hunderway.rooted.ne_start_of_better hbetter)

theorem live_enter (hz : Live p (some c) (r.enter x (g + w.toNat) c)
    (f.insert (p.candidate x (g + w.toNat))) z j) :
    z = x ∧ j = g + w.toNat ∨ z ≠ x ∧ Live p (some c) r f z j := by
  rcases hz with hwaits | ⟨hbusy, hreach⟩
  · exact ((waits_enter_iff hunderway hbetter).1 hwaits).imp_right (And.imp_right Or.inl)
  · exact (Arrivals.reaches_enter.1 hreach).imp_right (And.imp_right fun h ↦ Or.inr ⟨hbusy, h⟩)

include hexact in
/-- The candidate of a better arrival is new. -/
theorem notMem_of_better (hedge : Joined calls c x w) : p.candidate x (g + w.toNat) ∉ f := by
  have hx := hunderway.rooted.ne_start_of_better hbetter
  rw [Problem.candidate_eq hx]
  intro hmem
  have hle := hunderway.rooted.add_le_totalWeight hunderway.current hedge hbetter
  obtain ⟨k, hk, hpriority, j, hj, hold⟩ := hunderway.covers.entry _ hmem
  have := (hexact.priority_inj hx hle hk).1 hpriority
  have := hbetter j hold
  omega

include h in
/-- Nothing on the way back from `c` waits after a better arrival by way of it either. -/
theorem before_enter (u : Vertex) (k : Nat) (hbefore : (r.enter x (g + w.toNat) c).Before c u) :
    ¬Waits p (r.enter x (g + w.toNat) c)
      (f.insert (p.candidate x (g + w.toNat))) u k := by
  have hx := not_before_self hunderway hbetter
  rw [Arrivals.before_enter_self hx] at hbefore
  rw [waits_enter_iff hunderway hbetter]
  rintro (⟨rfl, -⟩ | ⟨-, hwaits⟩)
  · exact hx hbefore
  · exact h.before u k hbefore hwaits

include h in
/-- A vertex of a lower rank that waits after a better arrival by way of `c` has been reached by way
of it. -/
theorem fresh_enter (z : Vertex) (j : Nat)
    (hwaits : Waits p (r.enter x (g + w.toNat) c)
      (f.insert (p.candidate x (g + w.toNat))) z j) :
    p.rank c g ≤ p.rank z j ∨ (r.enter x (g + w.toNat) c).Via z c := by
  rcases (waits_enter_iff hunderway hbetter).1 hwaits with ⟨rfl, -⟩ | ⟨hz, hwaits⟩
  · exact Or.inr (Arrivals.via_enter.2 (Or.inl ⟨rfl, rfl⟩))
  · exact (h.fresh z j hwaits).imp id fun hvia ↦ Arrivals.via_enter.2 (Or.inr ⟨hz, hvia⟩)

include h in
/-- A vertex that waits and has been reached by way of `x` does not come before `x` does. -/
theorem rank_lt_of_better (hz : Waits p r f z j) (hbefore : r.ProperlyBefore z x) :
    p.rank x (g + w.toNat) < p.rank z j := by
  have hx := hunderway.rooted.ne_start_of_better hbetter
  obtain ⟨i, -, hreach⟩ := hunderway.rooted.exists_le_of_before hbefore.before hz.1
  have hlt := hbetter i hreach
  -- Its rank falls with its cost.
  have hrank : p.rank x (g + w.toNat) < p.rank x i := by
    rw [Problem.rank_of_ne_start hx, Problem.rank_of_ne_start hx]
    omega
  by_cases hwaits : Waits p r f x i
  · exact hrank.trans (h.inOrder.before_first z x j i hbefore hz hwaits)
  · by_contra hle
    have hlow : p.rank z j < p.rank x i := by omega
    by_cases hc : p.rank c g < p.rank x i
    · rcases h.inOrder.spent x i hreach hwaits with hcost | hnone
      · have := hcost c g (Or.inr ⟨rfl, hunderway.current⟩) hc
        omega
      · exact hnone z j (Or.inl hz) hlow hbefore.before
    · rcases h.fresh z j hz with hge | hvia
      · omega
      · exact not_before_self hunderway hbetter (hbefore.of_via hvia)

include h in
theorem before_first_enter (z u : Vertex) (j k : Nat)
    (hnew : (r.enter x (g + w.toNat) c).ProperlyBefore z u)
    (hz : Waits p (r.enter x (g + w.toNat) c)
      (f.insert (p.candidate x (g + w.toNat))) z j)
    (hu : Waits p (r.enter x (g + w.toNat) c)
      (f.insert (p.candidate x (g + w.toNat))) u k) :
    p.rank u k < p.rank z j := by
  rcases Arrivals.properlyBefore_enter hnew with ⟨hzx, hbefore⟩ | hbefore
  · rcases (waits_enter_iff hunderway hbetter).1 hz with ⟨hzx', -⟩ | ⟨-, hold⟩
    · exact absurd hzx' hzx
    · rcases (waits_enter_iff hunderway hbetter).1 hu with ⟨rfl, rfl⟩ | ⟨-, hu⟩
      · exact rank_lt_of_better hunderway h hbetter hold hbefore
      · exact h.inOrder.before_first z u j k hbefore hold hu
  · rw [← Arrivals.before_enter_self (not_before_self hunderway hbetter)] at hbefore
    exact absurd hu (before_enter hunderway h hbetter u k hbefore)

include h in
/-- A vertex that does not wait after a better arrival by way of `c` is spent. -/
theorem spent_enter (hedge : Joined calls c x w) (y : Vertex) (k : Nat)
    (hy : (r.enter x (g + w.toNat) c).Reaches y k)
    (hspent : ¬Waits p (r.enter x (g + w.toNat) c) (f.insert (p.candidate x (g + w.toNat))) y k) :
    Spent p (some c) (r.enter x (g + w.toNat) c) (f.insert (p.candidate x (g + w.toNat))) y k := by
  rcases Nat.lt_or_ge (p.rank c g) (p.rank y k) with hc | hc
  swap
  · exact spent_of_rank_le (hunderway.enter hedge hbetter) (fresh_enter hunderway h hbetter) hy hc
  rw [waits_enter_iff hunderway hbetter] at hspent
  rcases Arrivals.reaches_enter.1 hy with hnew | ⟨hyx, hold⟩
  · exact absurd (Or.inl hnew) hspent
  -- Now `c` is itself among the live vertices of a lower rank, so what is known of them extends to
  -- `x`.
  rcases h.inOrder.spent y k hold fun hwaits ↦ hspent (Or.inr ⟨hyx, hwaits⟩) with hcost | hnone
  · left
    intro z j hz hlt
    rcases live_enter hunderway hbetter hz with ⟨-, rfl⟩ | ⟨-, hz⟩
    · have := hcost c g (Or.inr ⟨rfl, hunderway.current⟩) hc
      omega
    · exact hcost z j hz hlt
  · right
    intro z j hz hlt hbefore
    rcases Arrivals.properlyBefore_enter (hz.properlyBefore hlt hy hbefore) with
      ⟨hzx, hbefore⟩ | hbefore
    · rcases live_enter hunderway hbetter hz with ⟨hzx', -⟩ | ⟨-, hz⟩
      · exact hzx hzx'
      · exact hnone z j hz hlt hbefore.before
    · exact hnone c g (Or.inr ⟨rfl, hunderway.current⟩) hc hbefore

include hexact h in
/-- **A better arrival by way of `c` keeps the order in which vertices wait.** -/
theorem enter (hedge : Joined calls c x w) :
    Turn p c g (r.enter x (g + w.toNat) c) (f.insert (p.candidate x (g + w.toNat))) where
  inOrder :=
    { nodup := Frontier.nodup_insert h.inOrder.nodup
        (notMem_of_better hexact hunderway hbetter hedge)
      before_first := before_first_enter hunderway h hbetter
      spent := spent_enter hunderway h hbetter hedge }
  before := before_enter hunderway h hbetter
  fresh := fresh_enter hunderway h hbetter

end Turn

/-! ### Taking the first candidate -/

variable {s t : State} {d : Candidate} {rest : Frontier}

/-- The first candidate is the one with which its vertex waits, or the vertex does not wait. -/
theorem Exact.eq_candidate_of_waits (hexact : Exact calls p) (hs : Sound calls p s)
    (first : s.frontier = d :: rest)
    (hwaits : Waits p s.arrivals s.frontier d.vertex (s.costOf d.vertex)) :
    d = ⟨d.vertex, p.priority d.vertex (s.costOf d.vertex)⟩ := by
  obtain ⟨hreach, hmem⟩ := hwaits
  obtain ⟨k, hk, hpriority, j, hj, hreach'⟩ := hs.covers.entry d (first ▸ List.mem_cons_self)
  obtain rfl := hreach.unique hreach'
  suffices heq : d.priority = p.priority d.vertex (s.costOf d.vertex) by rw [← heq]
  rw [hpriority]
  by_cases hstart : d.vertex = p.start
  · rw [Problem.priority, Problem.priority, if_pos hstart, if_pos hstart]
  · -- An older candidate would have a higher priority and not be the first.
    have hascending := hs.covers.ascending
    rw [first] at hascending hmem
    have hle := hascending.first_le hmem
    rw [hpriority, hexact.priority_le_iff hk (hs.rooted.le_totalWeight hreach),
      Problem.rank_of_ne_start hstart, Problem.rank_of_ne_start hstart] at hle
    obtain rfl : k = s.costOf d.vertex := by omega
    rfl

theorem InOrder.of_busy (h : InOrder p (some c) r f) : InOrder p none r f := by
  refine ⟨h.nodup, h.before_first, fun y k hy hwaits ↦ ?_⟩
  have hlive : ∀ z j, Live p none r f z j → Live p (some c) r f z j :=
    fun z j hz ↦ Or.inl (hz.resolve_right fun hbusy ↦ nomatch hbusy.1)
  exact (h.spent y k hy hwaits).imp (fun hcost z j hz ↦ hcost z j (hlive z j hz))
    fun hnone z j hz ↦ hnone z j (hlive z j hz)

/-- When a candidate is taken with which its vertex waits, the turn of the vertex begins. -/
theorem InOrder.turn (hexact : Exact calls p) (hs : Sound calls p s)
    (h : InOrder p none s.arrivals s.frontier) (first : s.frontier = d :: rest)
    (hwaits : Waits p s.arrivals s.frontier d.vertex (s.costOf d.vertex)) :
    Turn p d.vertex (s.costOf d.vertex) s.arrivals rest := by
  have hd := hexact.eq_candidate_of_waits hs first hwaits
  obtain ⟨hnotMem, hnodup⟩ := List.nodup_cons.1 (first ▸ h.nodup)
  have hmem : ∀ z j, Waits p s.arrivals rest z j → Waits p s.arrivals s.frontier z j :=
    fun z j hz ↦ ⟨hz.1, first ▸ List.mem_cons_of_mem d hz.2⟩
  have hne : ∀ j, ¬Waits p s.arrivals rest d.vertex j := by
    intro j hz
    obtain rfl := hz.1.unique hwaits.1
    exact hnotMem (hd ▸ hz.2)
  have hfirst : ∀ z j, Waits p s.arrivals rest z j →
      p.rank d.vertex (s.costOf d.vertex) ≤ p.rank z j :=
    fun z j hz ↦ hexact.rank_first_le hs first hwaits.1 hz.1 (hmem z j hz).2
  have hfresh : ∀ z j, Waits p s.arrivals rest z j →
      p.rank d.vertex (s.costOf d.vertex) ≤ p.rank z j ∨ s.arrivals.Via z d.vertex :=
    fun z j hz ↦ Or.inl (hfirst z j hz)
  refine ⟨⟨hnodup, fun z u j k hbefore hz hu ↦ ?_, fun y k hy hspent ↦ ?_⟩, fun u k hbefore hu ↦ ?_,
    hfresh⟩
  · exact h.before_first z u j k hbefore (hmem z j hz) (hmem u k hu)
  · rcases eq_or_ne y d.vertex with rfl | hyd
    · obtain rfl := hy.unique hwaits.1
      exact spent_of_rank_le (hs.underway first) hfresh hy (Nat.le_refl _)
    · -- The live vertices are those that waited before.
      have hold : ¬Waits p s.arrivals s.frontier y k := by
        rintro ⟨-, hfrontier⟩
        rw [first] at hfrontier
        rcases List.mem_cons.1 hfrontier with heq | hrest
        · exact hyd (congrArg Candidate.vertex heq)
        · exact hspent ⟨hy, hrest⟩
      have hlive : ∀ z j, Live p (some d.vertex) s.arrivals rest z j →
          Live p none s.arrivals s.frontier z j := by
        rintro z j (hz | ⟨hbusy, hreach⟩)
        · exact Or.inl (hmem z j hz)
        · obtain rfl := Option.some.inj hbusy
          obtain rfl := hreach.unique hwaits.1
          exact Or.inl hwaits
      exact (h.spent y k hy hold).imp (fun hcost z j hz ↦ hcost z j (hlive z j hz))
        fun hnone z j hz ↦ hnone z j (hlive z j hz)
  · rcases eq_or_ne d.vertex u with rfl | hdu
    · exact hne k hu
    · have hlt := h.before_first _ u _ k (hbefore.properly hdu) hwaits (hmem u k hu)
      have hle := hfirst u k hu
      omega

/-- When an older candidate is taken, the same vertices go on waiting. -/
theorem InOrder.tail (h : InOrder p none r (d :: rest))
    (hd : ∀ k, ¬Waits p r (d :: rest) d.vertex k) : InOrder p none r rest := by
  have hwaits : ∀ z j, Waits p r rest z j ↔ Waits p r (d :: rest) z j := by
    refine fun z j ↦ and_congr_right fun hreach ↦ ⟨List.mem_cons_of_mem d, fun hmem ↦ ?_⟩
    rcases List.mem_cons.1 hmem with heq | hrest
    · obtain rfl : z = d.vertex := congrArg Candidate.vertex heq
      exact absurd ⟨hreach, hmem⟩ (hd j)
    · exact hrest
  have hlive : ∀ z j, Live p none r rest z j ↔ Live p none r (d :: rest) z j :=
    fun z j ↦ or_congr_left (hwaits z j)
  refine ⟨(List.nodup_cons.1 h.nodup).2, fun z u j k hbefore hz hu ↦ ?_, fun y k hy hspent ↦ ?_⟩
  · exact h.before_first z u j k hbefore ((hwaits z j).1 hz) ((hwaits u k).1 hu)
  · rw [hwaits] at hspent
    exact (h.spent y k hy hspent).imp (fun hcost z j hz ↦ hcost z j ((hlive z j).1 hz))
      fun hnone z j hz ↦ hnone z j ((hlive z j).1 hz)

/-- **Each round keeps the order in which vertices wait.** -/
theorem InOrder.step (hexact : Exact calls p) (hs : Sound calls p s)
    (h : InOrder p none s.arrivals s.frontier) (hstep : Step p s t) :
    InOrder p none t.arrivals t.frontier := by
  obtain ⟨d, rest, first, other, rfl⟩ := hstep.exists_first
  have hreach := hs.reaches_first first
  by_cases hwaits : Waits p s.arrivals s.frontier d.vertex (s.costOf d.vertex)
  · refine InOrder.of_busy (c := d.vertex) (Turn.inOrder (g := s.costOf d.vertex) ?_)
    refine And.right (expand_induction (s := take d rest s)
      (fun r f ↦ Underway calls p d.vertex (s.costOf d.vertex) r f ∧
        Turn p d.vertex (s.costOf d.vertex) r f)
      ?_ ⟨hs.underway first, h.turn hexact hs first hwaits⟩)
    rintro r f e he ⟨hunderway, hturn⟩ hbetter
    rw [hexact.network] at he
    have hedge := Network.mem_edgesOf_declared.1 he
    exact ⟨hunderway.enter hedge hbetter, hturn.enter hexact hunderway hbetter hedge⟩
  · -- The vertex is settled, so the round only takes the candidate away.
    have hsettled : Settled p s.arrivals d.vertex (s.costOf d.vertex) := by
      rcases hs.covers.waiting _ _ hreach with hbusy | hmem | ⟨-, hsettled⟩
      · cases hbusy
      · exact absurd ⟨hreach, hmem⟩ hwaits
      · exact hsettled
    obtain ⟨harrivals, hfrontier⟩ := expand_of_settled (s := take d rest s) hsettled
    rw [harrivals, hfrontier]
    rw [first] at h hwaits
    refine h.tail fun k hk ↦ ?_
    obtain rfl := hk.1.unique hreach
    exact hwaits hk

theorem InOrder.initial (p : Problem) : InOrder p none p.initial.arrivals p.initial.frontier := by
  refine ⟨List.nodup_singleton _, fun z u j k hbefore hz _ ↦ ?_, fun y k hy hspent ↦ ?_⟩
  · -- Nothing lies before the start, and nothing else has been reached.
    obtain ⟨rfl, -⟩ := Arrivals.eq_start_of_reaches hz.1
    obtain ⟨x, hvia, -⟩ := Arrivals.properlyBefore_iff.1 hbefore
    exact absurd hvia (Arrivals.rooted_singleton [] p.start).not_via_start
  · obtain ⟨rfl, -⟩ := Arrivals.eq_start_of_reaches hy
    exact absurd ⟨hy, p.start_mem_initial k⟩ hspent

/-- **It holds after any number of rounds.** -/
theorem InOrder.of_rounds (hexact : Exact calls p)
    (hrounds : Relation.ReflTransGen (Step p) p.initial t) :
    InOrder p none t.arrivals t.frontier := by
  refine And.right (kept_of_rounds
    (fun s ↦ Sound calls p s ∧ InOrder p none s.arrivals s.frontier) ?_
    ⟨Sound.initial calls p, InOrder.initial p⟩ hrounds)
  rintro s t ⟨hs, h⟩ hstep
  exact ⟨hs.step hexact.network hstep, h.step hexact hs hstep⟩

/-- **Nothing on the way back from the first vertex of the frontier waits.** -/
theorem InOrder.not_waits_of_first (hexact : Exact calls p) (hs : Sound calls p s)
    (h : InOrder p none s.arrivals s.frontier) (first : s.frontier = d :: rest)
    (hwaits : Waits p s.arrivals s.frontier d.vertex (s.costOf d.vertex))
    (hbefore : s.arrivals.ProperlyBefore d.vertex u) : ¬Waits p s.arrivals s.frontier u k := by
  intro hu
  have hlt := h.before_first d.vertex u _ k hbefore hwaits hu
  have hle := hexact.rank_first_le hs first hwaits.1 hu.1 hu.2
  omega

end Exploration

end GraphSearch.Route
