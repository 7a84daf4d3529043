import GraphSearch.Proofs.Route.Moments

/-!
# Retracing the way to the start

A path is read off the record backwards: from the vertex that it leads to, to the one by way of
which that was reached, and so on until the start is there (`Arrivals.Retrace`). Such a loop could
go wrong in two ways. It could go round in a circle, or it could come to a vertex other than the
start before which nothing is recorded (`Arrivals.Lost`).

Neither happens at any moment of a search, wherever the loop begins and whatever the estimates are
(`shortestPath_leadsHome`), although vertices are reached again by way of others while those that
were reached by way of them keep their costs. All of it is read off what each tick keeps of the
record, `Moment.Sound.rooted`: every way back ends at the start, and since at most one vertex lies
before each, there is no other way that could go on for ever (`Rooted.wellFounded_via`).
-/

namespace GraphSearch.Route

open Relation (ReflTransGen)

namespace Arrivals

variable {r : Arrivals} {calls : List Addition} {start u v x : Vertex} {k : Nat}
  {path passed : List Vertex}

/-! ### The loop -/

/-- One pass of the loop that reads a path off the record. The vertices that have been passed stand
in the order of the path, so that the one reached last is the first of them. -/
inductive Retrace (start : Vertex) (r : Arrivals) : List Vertex → List Vertex → Prop where
  /-- The vertex reached last is not the start, and it was reached by way of `u`. -/
  | back {u v : Vertex} {passed : List Vertex} (other : v ≠ start) (via : r.Via v u) :
      Retrace start r (v :: passed) (u :: v :: passed)

/-- The vertex reached last is not the start, and nothing lies before it. -/
def Lost (start : Vertex) (r : Arrivals) (path : List Vertex) : Prop :=
  ∃ v passed, path = v :: passed ∧ v ≠ start ∧ ∀ u, ¬r.Via v u

/-- The vertices that the loop has passed lie on the way back, the one reached last at its end. -/
theorem exists_before_of_retrace (h : ReflTransGen (Retrace start r) [v] path) :
    ∃ x passed, path = x :: passed ∧ r.Before v x := by
  induction h with
  | refl => exact ⟨v, [], rfl, .refl⟩
  | tail _ hlast ih =>
    obtain ⟨y, passed, rfl, hbefore⟩ := ih
    obtain ⟨-, hvia⟩ := hlast
    exact ⟨_, _, rfl, hbefore.tail hvia⟩

/-- The loop passes the vertices of the trail. -/
theorem retrace_of_trail (h : Trail start r v path)
    (passed : List Vertex) : ReflTransGen (Retrace start r) (v :: passed) (path ++ passed) := by
  induction h generalizing passed with
  | start => exact .refl
  | @next u v path other via _ ih =>
    rw [List.append_assoc, List.singleton_append]
    exact (ih (v :: passed)).head (.back other via)

namespace Rooted

/-- **No way back is endless**: from a vertex that has been reached the only one ends at the start,
and before any other vertex nothing lies. -/
theorem wellFounded_via (h : Rooted calls start r) : WellFounded fun u v ↦ r.Via v u := by
  refine ⟨fun v ↦ ?_⟩
  by_cases hv : ∃ u, r.Via v u
  · obtain ⟨u, k, hvia⟩ := hv
    have hbefore : r.Before v start := h.home v k ⟨_, hvia⟩
    clear hvia
    induction hbefore using ReflTransGen.head_induction_on with
    | refl => exact ⟨_, fun u hu ↦ absurd hu h.not_via_start⟩
    | head hvia _ ih => exact ⟨_, fun u hu ↦ hu.unique hvia ▸ ih⟩
  · exact ⟨_, fun u hu ↦ absurd ⟨u, hu⟩ hv⟩

/-- So the loop ends, wherever it begins. -/
theorem wellFounded_retrace (h : Rooted calls start r) :
    WellFounded fun path' path ↦ Retrace start r path path' := by
  refine Subrelation.wf ?_ (InvImage.wf (fun path ↦ path.headD start) h.wellFounded_via)
  rintro _ _ ⟨-, hvia⟩
  exact hvia

/-- The loop does not lose its way, if it begins at a vertex that has been reached. -/
theorem not_lost_of_retrace (h : Rooted calls start r) (hv : r.Reaches v k)
    (hpath : ReflTransGen (Retrace start r) [v] path) : ¬Lost start r path := by
  obtain ⟨x, passed, rfl, hbefore⟩ := exists_before_of_retrace hpath
  rintro ⟨x', passed', heq, hother, hnone⟩
  obtain ⟨rfl, rfl⟩ := List.cons.inj heq
  obtain ⟨j, -, hx⟩ := h.exists_le_of_before hbefore hv
  obtain ⟨u, hvia, -⟩ := properlyBefore_iff.1 ((h.home x j hx).properly hother)
  exact hnone u hvia

end Rooted

/-! ### Records that lead home -/

/-- What a record has to be like for paths to be read off it. -/
structure LeadsHome (calls : List Addition) (start : Vertex) (r : Arrivals) : Prop where
  /-- Nothing lies before the start. -/
  not_via_start : ∀ u, ¬r.Via start u
  /-- A vertex costs at least as much as the one before it together with an edge between the two. -/
  edge : ∀ v u, r.Via v u → ∃ j w k, r.Reaches u j ∧ Joined calls u v w ∧ r.Reaches v k ∧
    j + w.toNat ≤ k
  /-- The loop ends, wherever it begins. -/
  ends : WellFounded fun path' path ↦ Retrace start r path path'
  /-- It does not lose its way, if it begins at a vertex that has been reached. -/
  not_lost : ∀ v k path, r.Reaches v k → ReflTransGen (Retrace start r) [v] path →
    ¬Lost start r path
  /-- It then comes to the start, has passed no vertex twice, and what it has passed is the path. -/
  home : ∀ v k, r.Reaches v k → ∃ path, ReflTransGen (Retrace start r) [v] path ∧
    path.head? = some start ∧ path.Nodup ∧ Exploration.pathTo start r v [] = path

theorem Rooted.leadsHome (h : Rooted calls start r) : r.LeadsHome calls start where
  not_via_start _ := h.not_via_start
  edge := h.edge
  ends := h.wellFounded_retrace
  not_lost _ _ _ := h.not_lost_of_retrace
  home v k hv := by
    obtain ⟨path, htrail⟩ := Trail.of_before (h.home v k hv)
    have hretrace := Arrivals.retrace_of_trail htrail []
    have hpath := htrail.pathTo_eq []
    rw [List.append_nil] at hretrace hpath
    exact ⟨path, hretrace, htrail.head?_eq, htrail.nodup, hpath⟩

end Arrivals

namespace Exploration

open Arrivals (Retrace)

/-- **The record leads home at every moment of every search**, whatever the search is named for and
whatever the estimates are: nothing lies before the start, costs fall on the way back by the weight
of an edge at least, and retracing the way from any vertex that has been reached ends at the start
without passing a vertex twice. So it is with the record that the search leaves, and a path that is
returned has been retraced. -/
theorem shortestPath_leadsHome (calls : List Addition) (start goal : Vertex) (h : Heuristic)
    (estimate : Estimate) :
    (∀ m, ReflTransGen (Tick (.declared calls start goal h estimate))
        (.between (Problem.declared calls start goal h estimate).initial) m →
      m.state.arrivals.LeadsHome calls start) ∧
    (run (.declared calls start goal h estimate)
      (Problem.declared calls start goal h estimate).initial).2.arrivals.LeadsHome calls start ∧
    ∀ path, (shortestPath (.declared calls) start goal h estimate).outcome.path = some path →
      path.head? = some start ∧
        ReflTransGen (Retrace start (run (.declared calls start goal h estimate)
          (Problem.declared calls start goal h estimate).initial).2.arrivals) [goal] path := by
  obtain ⟨s, -, hsound, hends⟩ :=
    exists_sound_end (p := .declared calls start goal h estimate) rfl
  rw [hends.arrivals_eq]
  refine ⟨fun m hticks ↦ ?_, hsound.rooted.leadsHome, fun path hpath ↦ ?_⟩
  · have hm : m.Sound calls (.declared calls start goal h estimate) := .of_ticks rfl hticks
    exact hm.rooted.leadsHome
  · rcases hsound.outcome_of_ends rfl hends with
      ⟨-, hnone, -⟩ | ⟨_, _, path', -, -, -, hpath', htrail⟩
    · exact absurd (hpath.symm.trans hnone) (Option.some_ne_none path)
    · obtain rfl : path' = path := Option.some.inj (hpath'.symm.trans hpath)
      have hretrace := Arrivals.retrace_of_trail htrail []
      rw [List.append_nil] at hretrace
      exact ⟨htrail.head?_eq, hretrace⟩

end Exploration

end GraphSearch.Route
