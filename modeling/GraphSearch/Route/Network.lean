import GraphSearch.Route.Coordinate
import Std.Data.HashMap

/-!
# Networks of weighted edges

A network has vertices with numbers of 32 bits, some of which have a known place, and undirected
edges with a weight. Between two vertices there may be several edges, and an edge may join a vertex
to itself. A vertex keeps its edges in the order in which they were added: an edge is entered at
both of its ends, and one that joins a vertex to itself is entered there twice.
-/

namespace GraphSearch.Route

open Std (HashMap)

/-- A vertex of a network. -/
abbrev Vertex := Int32

/-- An edge as it is seen from one of its ends. -/
structure Edge where
  /-- The other end. -/
  target : Vertex
  /-- What it costs to go there. -/
  weight : UInt32
deriving DecidableEq, Repr

/-- An undirected graph with weighted edges and places in the plane. -/
structure Network where
  /-- The edges of each vertex. -/
  rows : HashMap Vertex (Array Edge) := ∅
  /-- The places that are known. -/
  places : HashMap Vertex Coordinate := ∅

namespace Network

/-- The edges of a vertex, in the order in which they were added. -/
def edgesOf (n : Network) (v : Vertex) : List Edge := (n.rows.getD v #[]).toList

/-- The place of a vertex, if it is known. -/
def coordinateOf (n : Network) (v : Vertex) : Option Coordinate := n.places[v]?

/-- The number of vertices. -/
def size (n : Network) : Nat := n.rows.size

/-- Whether `v` is a vertex of the network. -/
def contains (n : Network) (v : Vertex) : Bool := n.rows.contains v

/-- Adds the vertex `v`, unless it is there, and sets its place. -/
def addVertex (n : Network) (v : Vertex) (place : Coordinate) : Network :=
  { rows := n.rows.insertIfNew v #[]
    places := n.places.insert v place }

/-- Enters an edge at one of its ends. -/
def enter (n : Network) (v : Vertex) (e : Edge) : Network :=
  { n with rows := n.rows.insert v ((n.rows.getD v #[]).push e) }

/-- Adds an edge between `u` and `v`, and with it both vertices. -/
def addEdge (n : Network) (u v : Vertex) (weight : UInt32) : Network :=
  (n.enter u ⟨v, weight⟩).enter v ⟨u, weight⟩

/-- The far ends of all edges, seen from either end. -/
def targets (n : Network) : List Vertex :=
  n.rows.toList.flatMap fun row ↦ row.2.toList.map Edge.target

/-! ### What the operations do to the edges of a vertex -/

theorem edgesOf_addVertex (n : Network) (v w : Vertex) (place : Coordinate) :
    (n.addVertex v place).edgesOf w = n.edgesOf w := by
  simp only [edgesOf, addVertex, HashMap.getD_insertIfNew]
  split
  · rename_i h
    obtain rfl := eq_of_beq h.1
    rw [HashMap.getD_eq_fallback h.2]
  · rfl

theorem edgesOf_enter (n : Network) (v w : Vertex) (e : Edge) :
    (n.enter v e).edgesOf w = if v = w then n.edgesOf w ++ [e] else n.edgesOf w := by
  simp only [edgesOf, enter, HashMap.getD_insert, beq_iff_eq]
  split
  · rename_i h
    subst h
    simp
  · rfl

/-- Every edge of a vertex leads to one of the `targets`. -/
theorem target_mem_targets {n : Network} {v : Vertex} {e : Edge} (h : e ∈ n.edgesOf v) :
    e.target ∈ n.targets := by
  unfold edgesOf at h
  cases hr : n.rows[v]? with
  | none => simp [HashMap.getD_eq_getD_getElem?, hr] at h
  | some row =>
    rw [HashMap.getD_eq_getD_getElem?, hr] at h
    exact List.mem_flatMap.2 ⟨(v, row), HashMap.mem_toList_iff_getElem?_eq_some.2 hr,
      List.mem_map_of_mem h⟩

end Network

end GraphSearch.Route
