import GraphSearch.Route.Event
import GraphSearch.Route.Frontier
import GraphSearch.Route.Progress

/-!
# Searching for a shortest path

The search takes the candidate with the lowest priority from the frontier and expands it: for each
edge of its vertex it works out the cost of going along it. A cost that is new, or lower than the
one known, is recorded, and the far end is put on the frontier with that cost and an estimate of
what remains as its priority. A vertex may so be expanded again at a lower cost, and an older
candidate of it stays on the frontier; when its turn comes it is expanded like any other, unless the
search is told to go along no edge of it. The search ends when the goal is taken from the frontier
or when the frontier is empty.

Costs are whole numbers of any size. Priorities are sums in double precision, rounded to it twice:
first the cost is, then the sum. The estimates are a parameter of the search. They are those of the
heuristic that it is named for, unless others are given.

It ends in any case, whatever the estimates are. An expansion either records nothing, and then the
frontier has become shorter, or each of its records is progress (`Arrivals.Progress`), which cannot
go on for ever.
-/

namespace GraphSearch.Route

open Numeric (Binary64)

/-- A vertex taken from the frontier. -/
structure Expansion where
  /-- The vertex. -/
  vertex : Vertex
  /-- The cost at which it had been reached. -/
  cost : Nat
  /-- The priority with which it was taken. -/
  priority : Binary64
deriving DecidableEq, Repr

namespace Exploration

/-- What a search is about. -/
structure Problem where
  /-- Where the path is to run. -/
  network : Network
  /-- Where it is to begin. -/
  start : Vertex
  /-- Where it is to end. -/
  goal : Vertex
  /-- What the search is named for. -/
  heuristic : Heuristic
  /-- How the distance that remains is estimated. -/
  estimate : Estimate

/-- The estimate of the distance from `v` to the goal. -/
def Problem.remaining (p : Problem) (v : Vertex) : Binary64 :=
  p.estimate (p.network.coordinateOf v) (p.network.coordinateOf p.goal)

/-- What a search has come to. -/
structure State (α : Type := Candidate) where
  /-- The vertices reached so far. -/
  arrivals : Arrivals
  /-- The vertices to be expanded. -/
  frontier : Frontier α
  /-- How often a vertex was put on the frontier, the start apart. -/
  pushes : Nat := 0
  /-- The largest number of candidates on the frontier after an expansion. -/
  widest : Nat := 1
  /-- The vertices taken from the frontier, in order. -/
  expansions : Array Expansion := #[]

/-- Only the start has been reached, and it is to be expanded. Its priority is zero: no estimate is
made for it. -/
def Problem.initial (p : Problem) (α : Type := Candidate) [Entry α] : State α where
  arrivals := Std.HashMap.emptyWithCapacity.insert p.start ⟨0, none⟩
  frontier := [Entry.enter ⟨p.start, .ofNat 0⟩ 0]

variable {α : Type} [Entry α]

/-- The cost at which `v` has been reached. -/
def State.costOf (s : State α) (v : Vertex) : Nat := (s.arrivals[v]?.map Arrival.cost).getD 0

/-- Goes along one edge of `v`, which has been reached at the given cost. -/
def relax (p : Problem) (v : Vertex) (cost : Nat) (s : State α) (e : Edge) : State α :=
  let reached := cost + e.weight.toNat
  if s.arrivals.improves e.target reached then
    { s with
      arrivals := s.arrivals.insert e.target ⟨reached, some v⟩
      frontier :=
        s.frontier.insert (Entry.enter ⟨e.target, .ofNat reached + p.remaining e.target⟩ reached)
      pushes := s.pushes + 1 }
  else s

/-- Goes along edges of `v` in turn, all of them unless others are given. -/
def expand (p : Problem) (v : Vertex) (cost : Nat) (s : State α)
    (edges : List Edge := p.network.edgesOf v) : State α :=
  let s := edges.foldl (relax p v cost) s
  { s with widest := max s.widest s.frontier.length }

/-- Takes the first entry from the frontier. -/
def take (d : α) (rest : Frontier α) (s : State α) : State α :=
  let c := Entry.candidate d
  { s with
    frontier := rest
    expansions := s.expansions.push ⟨c.vertex, s.costOf c.vertex, c.priority⟩ }

/-! ### Each round records progress or shortens the frontier -/

theorem relax_eq_or_progress {p : Problem} {v : Vertex} {e : Edge} (cost : Nat) (s : State α)
    (he : e ∈ p.network.edgesOf v) :
    relax p v cost s e = s ∨
      Arrivals.Progress p.network.targets (relax p v cost s e).arrivals s.arrivals := by
  by_cases h : s.arrivals.improves e.target (cost + e.weight.toNat) = true
  · right
    have := Arrivals.progress_insert (a := ⟨cost + e.weight.toNat, some v⟩)
      (Network.target_mem_targets he) h
    simpa only [relax, h, if_true] using this
  · left
    simp only [relax, h, Bool.false_eq_true, if_false]

theorem foldl_relax_eq_or_progress {p : Problem} {v : Vertex} {edges : List Edge} (cost : Nat)
    (s : State α) (h : ∀ e ∈ edges, e ∈ p.network.edgesOf v) :
    edges.foldl (relax p v cost) s = s ∨
      Arrivals.Progress p.network.targets (edges.foldl (relax p v cost) s).arrivals s.arrivals := by
  induction edges generalizing s with
  | nil => exact Or.inl rfl
  | cons e edges ih =>
    have he := relax_eq_or_progress cost s (h e (List.mem_cons_self ..))
    have ih := ih (relax p v cost s e) fun e he ↦ h e (List.mem_cons_of_mem _ he)
    rw [List.foldl_cons]
    rcases he with he | he
    · rwa [he] at ih ⊢
    · rcases ih with ih | ih
      · rw [ih]
        exact Or.inr he
      · exact Or.inr (ih.trans he)

/-- The measure of a state: what it lacks, what it has cost, and what is still to be expanded. -/
def measure (p : Problem) (s : State α) : Nat × Nat × Nat :=
  (s.arrivals.unseen p.network.targets, s.arrivals.total p.network.targets, s.frontier.length)

theorem measure_expand_lt {p : Problem} {s : State α} {d : α} {rest : Frontier α} {v : Vertex}
    {cost : Nat} {edges : List Edge} (h : s.frontier = d :: rest)
    (hedges : ∀ e ∈ edges, e ∈ p.network.edgesOf v) :
    Prod.Lex (· < ·) (Prod.Lex (· < ·) (· < ·)) (measure p (expand p v cost (take d rest s) edges))
      (measure p s) := by
  have hfold := foldl_relax_eq_or_progress cost (take d rest s) hedges
  unfold measure expand
  rcases hfold with heq | hunseen | ⟨hunseen, htotal⟩
  · rw [heq]
    have hlen : (take d rest s).frontier.length < s.frontier.length := by simp [h, take]
    exact Prod.Lex.right _ (Prod.Lex.right _ hlen)
  · exact Prod.Lex.left _ _ hunseen
  · refine Prod.lex_def.2 (Or.inr ⟨hunseen, ?_⟩)
    exact Prod.Lex.left _ _ htotal

/-! ### The search -/

/-- The edges that are gone along when the candidate is taken: all edges of its vertex, or none if
it is skipped. -/
def edgesFor (p : Problem) (c : Candidate) (skipped : Bool) : List Edge :=
  if skipped then [] else p.network.edgesOf c.vertex

theorem mem_edgesOf_of_mem_edgesFor {p : Problem} {c : Candidate} {skipped : Bool} {e : Edge}
    (he : e ∈ edgesFor p c skipped) : e ∈ p.network.edgesOf c.vertex := by
  cases skipped with
  | true => cases he
  | false => exact he

/-- Expands candidates until the goal is taken from the frontier, and gives the cost at which it had
been reached, or until the frontier is empty. No candidate is skipped unless it is said which ones
are. -/
def run (p : Problem) (s : State α) (skips : State α → α → Bool := fun _ _ ↦ false) :
    Option Nat × State α :=
  match _ : s.frontier with
  | [] => (none, s)
  | d :: rest =>
    let c := Entry.candidate d
    let cost := s.costOf c.vertex
    let taken := take d rest s
    if c.vertex = p.goal then (some cost, taken)
    else run p (expand p c.vertex cost taken (edgesFor p c (skips s d))) skips
termination_by measure p s
decreasing_by exact measure_expand_lt ‹_› fun _ ↦ mem_edgesOf_of_mem_edgesFor

/-- The vertices from the start to `v` in the order of the arrivals, followed by those given. A
vertex is struck from the arrivals when it has been passed, so that the way back ends. -/
def pathTo (start : Vertex) (arrivals : Arrivals) (v : Vertex) (after : List Vertex) :
    List Vertex :=
  if v = start then v :: after
  else
    match _ : arrivals[v]? with
    | some ⟨_, some u⟩ => pathTo start (arrivals.erase v) u (v :: after)
    | _ => v :: after
termination_by arrivals.size
decreasing_by
  have hv : v ∈ arrivals := Std.HashMap.isSome_getElem?_iff_mem.1 (by simp [*])
  have : arrivals.isEmpty = false :=
    Std.HashMap.isEmpty_eq_false_iff_exists_mem.2 ⟨v, hv⟩
  rw [Std.HashMap.size_erase, if_pos hv]
  rw [Std.HashMap.isEmpty_eq_size_eq_zero] at this
  have : arrivals.size ≠ 0 := by simpa using this
  omega

end Exploration

/-- What came of a search for a path. -/
structure Outcome where
  /-- The path, if there is one. -/
  path : Option (List Vertex)
  /-- What it costs. -/
  cost : Option Nat
  /-- How many candidates were taken from the frontier. -/
  expanded : Nat
  /-- How often a vertex was put on the frontier, the start apart. -/
  pushes : Nat
  /-- The largest number of candidates on the frontier. -/
  widest : Nat
deriving DecidableEq, Repr

/-- Whether there is a path. -/
def Outcome.found (o : Outcome) : Bool := o.path.isSome

/-- A search for a path, with all that it expanded. -/
structure Exploration where
  /-- What came of it. -/
  outcome : Outcome
  /-- The vertices taken from the frontier, in order. -/
  expansions : List Expansion
  /-- What there is to be said of it. -/
  events : List Event
deriving DecidableEq, Repr

/-- What is returned of a search that has come to a cost and a last state. -/
def Exploration.Problem.exploration {α : Type} (p : Problem) : Option Nat × State α → Exploration
  | (cost, s) =>
    { outcome :=
        { path := cost.map fun _ ↦ pathTo p.start s.arrivals p.goal []
          cost
          expanded := s.expansions.size
          pushes := s.pushes
          widest := s.widest }
      expansions := s.expansions.toList
      events := [match cost with
        | some c => .reached p.heuristic p.goal c s.expansions.size
        | none => .unreachable p.heuristic p.start p.goal] }

/-- Searches the network for a shortest path. -/
def shortestPath (n : Network) (start goal : Vertex) (h : Heuristic)
    (estimate : Estimate := fun a b ↦ h.estimate a b) : Exploration :=
  let p : Exploration.Problem := ⟨n, start, goal, h, estimate⟩
  p.exploration (Exploration.run p p.initial)

end GraphSearch.Route
