import GraphSearch.Proofs.Route.ConsistentEstimates
import GraphSearch.Proofs.Route.InstanceGrammar
import GraphSearch.Proofs.Route.RecordedNetwork

/-!
# Distances between the places of an instance

The places of an instance that was read are unpacked from cells (`exists_cells_of_parse_eq_ok`).
Division and remainder are truncated, so that both coordinates have the sign of the cell, and ten
times the first one and the second one add up to it again (`Coordinate.ten_mul_x_add_y`). All that
is needed of them beyond this is that they are small: no difference of two leaves the signed words,
and no sum of two distances along an axis the unsigned ones. So the distance in steps is that of the
integers (`Coordinate.ExactDistances`), from which it is a metric on the cells (`CellMetric`).

By the triangle inequality the estimates of the two ends of an edge then differ by no more than the
steps between these. If every edge weighs at least as much, they are consistent, and what is
consistent exceeds the weight of no walk to the goal (`Consistent.admissible`).
-/

namespace GraphSearch.Route

open Numeric (Binary64)
open Text (Source)

variable {calls : List Addition}

/-! ### Cells -/

namespace Coordinate

/-- The steps between two places along the axes, as a number without a bound. -/
def steps (a b : Coordinate) : Nat :=
  (a.x.toInt - b.x.toInt).natAbs + (a.y.toInt - b.y.toInt).natAbs

/-- No word overflows where the distances of two places are computed. -/
structure ExactDistances (a b : Coordinate) : Prop where
  /-- The difference of the first coordinates is a signed word. -/
  toInt_sub_x : (a.x - b.x).toInt = a.x.toInt - b.x.toInt
  /-- The difference of the second coordinates is a signed word. -/
  toInt_sub_y : (a.y - b.y).toInt = a.y.toInt - b.y.toInt
  /-- The sum of the distances along the axes is an unsigned word. -/
  toNat_manhattan : (a.manhattan b).toNat = a.steps b

/-- The distance of two coordinates is always a word. -/
theorem toNat_gap (a b : Int32) : (gap a b).toNat = (a.toInt - b.toInt).natAbs := by
  have := a.le_toInt
  have := a.toInt_lt
  have := b.le_toInt
  have := b.toInt_lt
  exact UInt32.toNat_ofNat_of_lt' (by rw [UInt32.size]; omega)

theorem toInt_y_ofCell (cell : Int32) : (ofCell cell).y.toInt = cell.toInt.tmod 10 :=
  Int32.toInt_mod cell 10

/-- **A cell is ten times its first coordinate and its second one**, be it negative or not. -/
theorem ten_mul_x_add_y (cell : Int32) :
    10 * (ofCell cell).x.toInt + (ofCell cell).y.toInt = cell.toInt := by
  have hx : (ofCell cell).x.toInt = cell.toInt.tdiv 10 :=
    Int32.toInt_div_of_ne_right cell 10 (by decide)
  rw [hx, toInt_y_ofCell, Int.mul_tdiv_add_tmod]

theorem natAbs_y_ofCell_lt (cell : Int32) : (ofCell cell).y.toInt.natAbs < 10 := by
  rw [toInt_y_ofCell, Int.natAbs_tmod]
  exact Nat.mod_lt _ (by decide)

/-- The first coordinate of a cell stays far below the limits of its word. -/
theorem natAbs_x_ofCell_lt (cell : Int32) : (ofCell cell).x.toInt.natAbs < 2 ^ 28 := by
  have := ten_mul_x_add_y cell
  have := natAbs_y_ofCell_lt cell
  have := cell.le_toInt
  have := cell.toInt_lt
  omega

theorem toInt_sub_of_natAbs_lt {a b : Int32} (ha : a.toInt.natAbs < 2 ^ 28)
    (hb : b.toInt.natAbs < 2 ^ 28) : (a - b).toInt = a.toInt - b.toInt := by
  rw [Int32.toInt_sub]
  exact Int.bmod_eq_of_le (by omega) (by omega)

/-- **Nothing overflows between cells.** -/
theorem exactDistances_ofCell (c d : Int32) : ExactDistances (ofCell c) (ofCell d) := by
  have hcx := natAbs_x_ofCell_lt c
  have hdx := natAbs_x_ofCell_lt d
  have hcy := natAbs_y_ofCell_lt c
  have hdy := natAbs_y_ofCell_lt d
  refine ⟨toInt_sub_of_natAbs_lt hcx hdx, ?_, ?_⟩
  · exact toInt_sub_of_natAbs_lt (by omega) (by omega)
  · rw [manhattan, UInt32.toNat_add, toNat_gap, toNat_gap]
    exact Nat.mod_eq_of_lt (by omega)

theorem steps_comm (a b : Coordinate) : a.steps b = b.steps a := by
  unfold steps
  omega

theorem steps_triangle (a b c : Coordinate) : a.steps c ≤ a.steps b + b.steps c := by
  unfold steps
  omega

theorem steps_ofCell_eq_zero_iff {c d : Int32} : (ofCell c).steps (ofCell d) = 0 ↔ c = d := by
  refine ⟨fun h ↦ ?_, fun h ↦ ?_⟩
  · have hc := ten_mul_x_add_y c
    have hd := ten_mul_x_add_y d
    unfold steps at h
    exact Int32.toInt_inj.1 (by omega)
  · subst h
    unfold steps
    omega

end Coordinate

/-- In double precision an estimate in steps is their number. -/
theorem Heuristic.units_estimate_manhattan (source goal : Option Coordinate) :
    (manhattan.estimate source goal).units =
      manhattan.steps source goal * Binary64.unitsPerOne := by
  have hwhole : manhattan ≠ .euclidean := by decide
  rw [estimate_eq_ofNat hwhole]
  exact Binary64.units_ofNat ((steps_lt _ _ _).trans (by decide))

open Coordinate (ofCell)

/-- Places that are unpacked from cells have distances that are exact, and those in steps are a
metric on the cells. -/
structure CellMetric : Prop where
  /-- The coordinates make up the cell. -/
  ten_mul_x_add_y (c : Int32) : 10 * (ofCell c).x.toInt + (ofCell c).y.toInt = c.toInt
  /-- Nothing overflows between two cells. -/
  exact (c d : Int32) : (ofCell c).ExactDistances (ofCell d)
  /-- The distance does not depend on the direction. -/
  manhattan_comm (c d : Int32) : (ofCell c).manhattan (ofCell d) = (ofCell d).manhattan (ofCell c)
  /-- Different cells have a distance. -/
  manhattan_eq_zero_iff (c d : Int32) : (ofCell c).manhattan (ofCell d) = 0 ↔ c = d
  /-- A detour is not shorter. -/
  manhattan_triangle (c d e : Int32) : ((ofCell c).manhattan (ofCell e)).toNat ≤
    ((ofCell c).manhattan (ofCell d)).toNat + ((ofCell d).manhattan (ofCell e)).toNat
  /-- An estimate in steps is the distance, not rounded. -/
  units_estimate (c d : Int32) :
    (Heuristic.manhattan.estimate (some (ofCell c)) (some (ofCell d))).units =
      (ofCell c).steps (ofCell d) * Binary64.unitsPerOne

theorem cellMetric : CellMetric := by
  have hexact (c d : Int32) :
      ((ofCell c).manhattan (ofCell d)).toNat = (ofCell c).steps (ofCell d) :=
    (Coordinate.exactDistances_ofCell c d).toNat_manhattan
  refine ⟨Coordinate.ten_mul_x_add_y, Coordinate.exactDistances_ofCell, fun c d ↦ ?_,
    fun c d ↦ ?_, fun c d e ↦ ?_, fun c d ↦ ?_⟩
  · rw [← UInt32.toNat_inj, hexact, hexact]
    exact Coordinate.steps_comm _ _
  · rw [← UInt32.toNat_inj, hexact]
    exact Coordinate.steps_ofCell_eq_zero_iff
  · rw [hexact, hexact, hexact]
    exact Coordinate.steps_triangle _ _ _
  · rw [Heuristic.units_estimate_manhattan]
    exact congrArg (· * Binary64.unitsPerOne) (hexact c d)

/-! ### Edges that weigh enough -/

/-- Each vertex on an edge has a place, and no edge weighs less than the steps between its ends. -/
def Network.CoversSteps (n : Network) : Prop :=
  ∀ u, ∀ e ∈ n.edgesOf u, ∃ a b, n.coordinateOf u = some a ∧ n.coordinateOf e.target = some b ∧
    (a.manhattan b).toNat ≤ e.weight.toNat

/-- All places of the network are unpacked from cells. -/
def Network.PlacedInCells (n : Network) : Prop :=
  ∀ v place, n.coordinateOf v = some place → ∃ cell, place = ofCell cell

/-- **Edges that weigh enough make the steps to any goal consistent estimates.** -/
theorem consistent_of_coversSteps (hcells : (Network.declared calls).PlacedInCells)
    (hcovers : (Network.declared calls).CoversSteps) (goal : Vertex) :
    Consistent calls .manhattan goal := by
  intro u v w hjoined
  obtain ⟨a, b, ha, hb, hweight⟩ := hcovers u ⟨v, w⟩ (Network.mem_edgesOf_declared.2 hjoined)
  obtain ⟨c, rfl⟩ := hcells u a ha
  obtain ⟨d, rfl⟩ := hcells v b hb
  rw [stepsTo, stepsTo, ha, hb]
  cases hgoal : (Network.declared calls).coordinateOf goal with
  | none => exact Nat.zero_le _
  | some g =>
    obtain ⟨e, rfl⟩ := hcells goal g hgoal
    show ((ofCell c).manhattan (ofCell e)).toNat ≤ w.toNat + ((ofCell d).manhattan (ofCell e)).toNat
    exact (cellMetric.manhattan_triangle c d e).trans (Nat.add_le_add_right hweight _)

/-- There are no steps from a vertex to itself. -/
theorem stepsTo_self (n : Network) (h : Heuristic) (v : Vertex) : stepsTo n h v v = 0 := by
  unfold stepsTo Heuristic.steps
  split
  · rename_i a b ha hb
    obtain rfl : a = b := Option.some.inj (ha.symm.trans hb)
    rw [Coordinate.manhattan, UInt32.toNat_add, Coordinate.toNat_gap, Coordinate.toNat_gap]
    simp
  · rfl

/-- What is consistent exceeds no distance to the goal. -/
theorem Consistent.admissible {h : Heuristic} (hcons : Consistent calls h goal) :
    Admissible calls h goal := by
  intro v k hwalk
  have hle := hwalk.le_add hcons
  rwa [stepsTo_self, Nat.add_zero] at hle

/-! ### Instances -/

namespace Instance

variable {source : Source} {i : Instance}

/-- **An instance that was read has its places in cells**, and its network is declared. -/
theorem exists_cells_of_parse_eq_ok (h : parse source = .ok i) :
    ∃ calls, i.network = .declared calls ∧ i.network.PlacedInCells := by
  obtain ⟨d, hrun, -⟩ := bind_eq_ok_iff.1 h
  rw [Source.statements_eq] at hrun
  obtain ⟨lines, hlines⟩ := follows_readEntry.exists_lines_of_run_eq_ok hrun
  obtain ⟨said, hsaid, houtcome⟩ := (parse_eq_ok_iff hlines).1 h
  obtain ⟨-, -, hnetwork⟩ := outcome_eq_ok_iff.1 houtcome
  refine ⟨additions said, hnetwork, fun v place hplace ↦ ?_⟩
  rw [hnetwork, Network.coordinateOf_declared_eq_some_iff] at hplace
  obtain ⟨before, after, hcalls, -⟩ := hplace
  have hmem : .vertex v place ∈ additions said := by
    rw [hcalls]
    exact List.mem_append_right before List.mem_cons_self
  obtain ⟨m, hm, hadds⟩ := List.mem_filterMap.1 hmem
  obtain ⟨text, hmeans⟩ := hsaid.exists_means_of_mem hm
  cases hmeans with
  | start _ _ => cases hadds
  | goal _ _ => cases hadds
  | @vertex _ _ _ cell _ _ _ =>
    obtain ⟨-, rfl⟩ := Addition.vertex.inj (Option.some.inj hadds)
    exact ⟨cell, rfl⟩
  | edge _ _ _ _ => cases hadds

/-- **Distances between the places of an instance are safe, and may guide a search.** Cells are
unpacked into what makes them up, without an overflow in the distances between any two, and the
distance in steps is a metric. The places of an instance that was read are such cells. If each
vertex on an edge has a place and no edge weighs less than the steps between its ends, the estimate
in steps to any goal weighs no more than any walk to it. -/
theorem manhattan_le_weight_of_walk :
    CellMetric ∧ ∀ source i, parse source = .ok i → ∃ calls, i.network = .declared calls ∧
      i.network.PlacedInCells ∧ (i.network.CoversSteps → ∀ goal v k, Walk calls v goal k →
        (Heuristic.manhattan.estimate (i.network.coordinateOf v)
          (i.network.coordinateOf goal)).units
          ≤ k * Binary64.unitsPerOne) := by
  refine ⟨cellMetric, fun source i h ↦ ?_⟩
  obtain ⟨calls, hnetwork, hcells⟩ := exists_cells_of_parse_eq_ok h
  refine ⟨calls, hnetwork, hcells, fun hcovers goal v k hwalk ↦ ?_⟩
  rw [Heuristic.units_estimate_manhattan]
  rw [hnetwork] at hcells hcovers ⊢
  have hsteps := (consistent_of_coversSteps hcells hcovers goal).admissible v k hwalk
  exact Nat.mul_le_mul_right _ hsteps

/-- Three vertices, of which the first has a negative cell, and two edges that weigh just enough. -/
def stepwise : List Addition :=
  [.vertex 1 (.ofCell (-11)), .vertex 2 (.ofCell 5), .vertex 3 (.ofCell 27), .edge 1 2 7,
    .edge 2 3 4]

/-- In that network the estimate is the weight of the walk along both edges. -/
theorem manhattan_le_weight_of_walk_tight :
    ∃ i, parse (.ofString "S,1\nD,3\n1,-11\n2,5\n3,27\n1,2,7\n2,3,4") = .ok i ∧
      i.network.CoversSteps ∧ ∃ calls, i.network = .declared calls ∧ Walk calls 1 3 11 ∧
      (Heuristic.manhattan.estimate (i.network.coordinateOf 1) (i.network.coordinateOf 3)).units
        ≤ 11 * Binary64.unitsPerOne := by
  have hlines : (Source.ofString "S,1\nD,3\n1,-11\n2,5\n3,27\n1,2,7\n2,3,4").lines =
      [['S', ',', '1'], ['D', ',', '3'], ['1', ',', '-', '1', '1'], ['2', ',', '5'],
        ['3', ',', '2', '7'], ['1', ',', '2', ',', '7'], ['2', ',', '3', ',', '4']].map .ok := by
    decide +kernel
  have hsaid : Text.Recites Means [['S', ',', '1'], ['D', ',', '3'], ['1', ',', '-', '1', '1'],
      ['2', ',', '5'], ['3', ',', '2', '7'], ['1', ',', '2', ',', '7'], ['2', ',', '3', ',', '4']]
      [.start 1, .goal 3, .adds (.vertex 1 (.ofCell (-11))), .adds (.vertex 2 (.ofCell 5)),
        .adds (.vertex 3 (.ofCell 27)), .adds (.edge 1 2 7), .adds (.edge 2 3 4)] := by
    refine .spoken (by decide) (.start rfl (by decide)) ?_
    refine .spoken (by decide) (.goal rfl (by decide)) ?_
    refine .spoken (by decide) (.vertex rfl (by decide) (by decide)) ?_
    refine .spoken (by decide) (.vertex rfl (by decide) (by decide)) ?_
    refine .spoken (by decide) (.vertex rfl (by decide) (by decide)) ?_
    refine .spoken (by decide) (.edge rfl (by decide) (by decide) (by decide)) ?_
    exact .spoken (by decide) (.edge rfl (by decide) (by decide) (by decide)) .nil
  have hparse : parse _ = .ok ⟨.declared stepwise, 1, 3⟩ := parse_of_recites hlines hsaid
  have hcovers : (Network.declared stepwise).CoversSteps := by
    rintro u ⟨v, w⟩ he
    obtain ⟨c, hc, hjoins⟩ := Network.mem_edgesOf_declared.1 he
    simp only [stepwise, List.mem_cons, List.not_mem_nil, or_false] at hc
    simp only [Network.coordinateOf_declared]
    rcases hc with rfl | rfl | rfl | rfl | rfl <;> rcases hjoins with h | h <;> cases h <;>
      exact ⟨_, _, rfl, rfl, by decide⟩
  obtain ⟨calls, hnetwork, -, hle⟩ := manhattan_le_weight_of_walk.2 _ _ hparse
  have hjoined {u v : Vertex} {w : UInt32} (h : Joined stepwise u v w) : Joined calls u v w :=
    Network.mem_edgesOf_declared.1 (hnetwork ▸ Network.mem_edgesOf_declared.2 h)
  have hwalk : Walk calls 1 3 11 := by
    refine .head (x := 2) (w := 7) (hjoined ?_) (.head (w := 4) (hjoined ?_) (.refl 3))
    · exact ⟨.edge 1 2 7, by decide, Or.inl rfl⟩
    · exact ⟨.edge 2 3 4, by decide, Or.inl rfl⟩
  exact ⟨_, hparse, hcovers, calls, hnetwork, hwalk, hle hcovers 3 1 11 hwalk⟩

end Instance

end GraphSearch.Route
