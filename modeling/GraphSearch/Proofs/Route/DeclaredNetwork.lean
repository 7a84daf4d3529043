import GraphSearch.Route.Network
import GraphSearch.Sum
import Mathlib.Data.List.Basic

/-!
# The network of a sequence of additions

A network comes about by adding vertices and edges, one after another. `Network.declared calls` is
the network of a sequence of such calls, and what the calls say is stated about the calls alone:
`Addition.Joins` says which two vertices a call joins and at which weight, and `totalWeight` adds
the weights of all edges up.

`edgesOf_declared` gives the edges of a vertex in their order, and `mem_edgesOf_declared` says that
they are those that some call declares, in either orientation. `coordinateOf_declared` finds the
place of a vertex in the last call that declares the vertex.
-/

namespace GraphSearch.Route

open Std (HashMap)

/-- One call of a sequence of additions. -/
inductive Addition where
  /-- The vertex `v` is declared at its place. -/
  | vertex (v : Vertex) (place : Coordinate)
  /-- An edge between `u` and `v` is declared. -/
  | edge (u v : Vertex) (weight : UInt32)
deriving DecidableEq, Repr

namespace Addition

/-- The call joins the two vertices by an edge of this weight, in either orientation. -/
def Joins (c : Addition) (u v : Vertex) (w : UInt32) : Prop := c = edge u v w ∨ c = edge v u w

instance (c : Addition) (u v : Vertex) (w : UInt32) : Decidable (c.Joins u v w) :=
  inferInstanceAs (Decidable (_ ∨ _))

/-- The weight of the edge that the call declares; a vertex weighs nothing. -/
def weight : Addition → Nat
  | vertex _ _ => 0
  | edge _ _ w => w.toNat

/-- What the call enters at the vertex `x`: an edge at each of its ends, and one that joins a vertex
to itself twice. -/
def entriesAt (x : Vertex) : Addition → List Edge
  | vertex _ _ => []
  | edge u v w => (if u = x then [⟨v, w⟩] else []) ++ if v = x then [⟨u, w⟩] else []

/-- The place at which the call declares the vertex `x`, if it does. -/
def placeOf? (x : Vertex) : Addition → Option Coordinate
  | vertex v place => if v = x then some place else none
  | edge _ _ _ => none

/-- A call enters at a vertex the edges by which it joins it to another one. -/
theorem mem_entriesAt {c : Addition} {u v : Vertex} {w : UInt32} :
    ⟨v, w⟩ ∈ c.entriesAt u ↔ c.Joins u v w := by
  cases c with
  | vertex x place => simp [entriesAt, Joins]
  | edge x y w' =>
    simp only [entriesAt, Joins, List.mem_append, List.mem_ite_nil_right, List.mem_singleton,
      Edge.mk.injEq, edge.injEq]
    constructor
    · rintro (⟨rfl, rfl, rfl⟩ | ⟨rfl, rfl, rfl⟩)
      · exact Or.inl ⟨rfl, rfl, rfl⟩
      · exact Or.inr ⟨rfl, rfl, rfl⟩
    · rintro (⟨rfl, rfl, rfl⟩ | ⟨rfl, rfl, rfl⟩)
      · exact Or.inl ⟨rfl, rfl, rfl⟩
      · exact Or.inr ⟨rfl, rfl, rfl⟩

end Addition

/-- Some call joins the two vertices by an edge of this weight. -/
def Joined (calls : List Addition) (u v : Vertex) (w : UInt32) : Prop :=
  ∃ c ∈ calls, c.Joins u v w

/-- The sum of the weights of all edges that the calls declare. -/
def totalWeight (calls : List Addition) : Nat := sumOf Addition.weight calls

namespace Network

/-! ### What a call does -/

/-- Takes up a call. -/
def record (n : Network) : Addition → Network
  | .vertex v place => n.addVertex v place
  | .edge u v w => n.addEdge u v w

/-- The network of a sequence of calls. -/
def declared (calls : List Addition) : Network := calls.foldl record {}

/-- A call puts what it enters at a vertex behind the edges that are there. -/
theorem edgesOf_record (n : Network) (c : Addition) (x : Vertex) :
    (n.record c).edgesOf x = n.edgesOf x ++ c.entriesAt x := by
  cases c with
  | vertex v place => simp [record, Addition.entriesAt, edgesOf_addVertex]
  | edge u v w =>
    show ((n.enter u ⟨v, w⟩).enter v ⟨u, w⟩).edgesOf x = _
    rw [edgesOf_enter, edgesOf_enter, Addition.entriesAt]
    split <;> split <;> simp

theorem coordinateOf_record (n : Network) (c : Addition) (x : Vertex) :
    (n.record c).coordinateOf x = (c.placeOf? x).or (n.coordinateOf x) := by
  cases c with
  | vertex v place =>
    show (n.places.insert v place)[x]? = _
    rw [HashMap.getElem?_insert, Addition.placeOf?]
    simp only [beq_iff_eq]
    split <;> rfl
  | edge u v w => rfl

/-! ### What a sequence of calls does -/

theorem edgesOf_foldl_record (calls : List Addition) (n : Network) (x : Vertex) :
    (calls.foldl record n).edgesOf x = n.edgesOf x ++ calls.flatMap (Addition.entriesAt x) := by
  induction calls generalizing n with
  | nil => simp
  | cons c calls ih =>
    rw [List.foldl_cons, ih, edgesOf_record, List.flatMap_cons, List.append_assoc]

theorem coordinateOf_foldl_record (calls : List Addition) (n : Network) (x : Vertex) :
    (calls.foldl record n).coordinateOf x =
      (calls.reverse.findSome? (Addition.placeOf? x)).or (n.coordinateOf x) := by
  induction calls generalizing n with
  | nil => simp
  | cons c calls ih =>
    rw [List.foldl_cons, ih, coordinateOf_record, List.reverse_cons, List.findSome?_append,
      List.findSome?_singleton, Option.or_assoc]

/-- **The edges of a vertex are what the calls enter there**, in the order of the calls. -/
theorem edgesOf_declared (calls : List Addition) (x : Vertex) :
    (declared calls).edgesOf x = calls.flatMap (Addition.entriesAt x) := by
  rw [declared, edgesOf_foldl_record]
  simp [edgesOf]

/-- **The place of a vertex is that of the last call that declares it.** -/
theorem coordinateOf_declared (calls : List Addition) (x : Vertex) :
    (declared calls).coordinateOf x = calls.reverse.findSome? (Addition.placeOf? x) := by
  rw [declared, coordinateOf_foldl_record]
  simp [coordinateOf]

/-- **A vertex has an edge exactly if some call declares it**, in either orientation. -/
theorem mem_edgesOf_declared {calls : List Addition} {u v : Vertex} {w : UInt32} :
    ⟨v, w⟩ ∈ (declared calls).edgesOf u ↔ Joined calls u v w := by
  simp only [edgesOf_declared, List.mem_flatMap, Addition.mem_entriesAt, Joined]

end Network

end GraphSearch.Route
