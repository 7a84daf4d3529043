import GraphSearch.Ascending
import GraphSearch.Table

/-!
# The graph to be coloured

Vertices are declared by integer labels, alone or as the ends of an edge. `Declarations` collects
what has been declared in one form: the labels and the edges are strictly ascending lists, and an
edge has its smaller end first. So neither order nor repetition of the declarations leaves a trace.

`Declarations.graph` numbers the labels from zero in ascending order. The numbers are the
**variables** of the problem, and all that follows speaks of variables. The neighbours of a variable
come in ascending order without a sort: edges are in lexicographic order, so those that end in `x`
stand before those that start in `x`, and each of the two groups is ascending in its other end.
-/

namespace GraphSearch.Colouring

/-- A vertex as it is declared. -/
abbrev Label := Int

/-- The number of a vertex in the ascending order of the labels. -/
abbrev Variable := Nat

/-- A colour; a palette of size `k` has the colours `1, …, k`. -/
abbrev Colour := Nat

/-- The name of a variable in texts. -/
def Variable.text (x : Variable) : String := s!"x{x}"

/-! ### Declarations -/

/-- An edge from a vertex to itself was declared. Its ends could never differ in colour. -/
structure SelfLoop where
  /-- The vertex. -/
  label : Label
deriving DecidableEq, Repr

/-- The text that reports a self loop. -/
def SelfLoop.message (e : SelfLoop) : String := s!"vertex {e.label} cannot be adjacent to itself"

/-- The vertices and edges declared so far. -/
structure Declarations where
  /-- The labels, strictly ascending. -/
  labels : List Label := []
  /-- The edges, each with its smaller end first, strictly ascending in lexicographic order. -/
  edges : List (Label × Label) := []
deriving DecidableEq, Repr

namespace Declarations

/-- The order in which labels are kept. -/
def labelBefore (u v : Label) : Bool := decide (u < v)

/-- The order in which edges are kept. -/
def edgeBefore (e f : Label × Label) : Bool :=
  decide (e.1 < f.1) || (decide (e.1 = f.1) && decide (e.2 < f.2))

/-- Declares the vertex `u`. -/
def addVertex (d : Declarations) (u : Label) : Declarations :=
  { d with labels := Ascending.insert labelBefore u d.labels }

/-- Declares the edge between `u` and `v`, and with it both vertices. A self loop is refused. -/
def addEdge (d : Declarations) (u v : Label) : Except SelfLoop Declarations :=
  if u = v then .error ⟨u⟩
  else
    let d := (d.addVertex u).addVertex v
    .ok { d with edges := Ascending.insert edgeBefore (min u v, max u v) d.edges }

/-- Declares vertices and then edges, in the order of the lists. The first self loop ends it. -/
def ofLists (vertices : List Label) (edges : List (Label × Label)) :
    Except SelfLoop Declarations :=
  edges.foldlM (fun d e ↦ d.addEdge e.1 e.2) (vertices.foldl addVertex {})

end Declarations

/-! ### Graphs -/

/-- An undirected graph on the variables `0, …, size - 1`. -/
structure Graph where
  /-- The label of each variable. -/
  labels : Table Label
  /-- The neighbours of each variable, in ascending order. -/
  neighbours : Table (List Variable)
  /-- The number of edges. -/
  edgeCount : Nat
deriving DecidableEq, Repr

/-- The end of an edge across from `x`, if `x` is one of its ends. -/
def acrossFrom (x : Variable) (e : Variable × Variable) : Option Variable :=
  if e.1 = x then some e.2 else if e.2 = x then some e.1 else none

/-- The graph of what has been declared. -/
def Declarations.graph (d : Declarations) : Graph :=
  let edges := d.edges.map fun e ↦ (d.labels.idxOf e.1, d.labels.idxOf e.2)
  { labels := .ofList d.labels
    neighbours := .ofList ((List.range d.labels.length).map fun x ↦ edges.filterMap (acrossFrom x))
    edgeCount := d.edges.length }

namespace Graph

/-- The graph of a list of edges, whose ends are all its vertices. -/
def ofEdges (edges : List (Label × Label)) : Except SelfLoop Graph :=
  (Declarations.ofLists [] edges).map Declarations.graph

/-- The number of variables. -/
def size (g : Graph) : Nat := g.labels.size

/-- All variables in ascending order. -/
def allVariables (g : Graph) : List Variable := g.labels.keys

/-- The label of a variable. -/
def labelOf (g : Graph) (x : Variable) : Except Fault Label := g.labels.get x

/-- The variable of a label, if the label was declared. -/
def find? (g : Graph) (u : Label) : Option Variable := g.labels.toList.idxOf? u

/-- The neighbours of a variable in ascending order. -/
def neighboursOf (g : Graph) (x : Variable) : Except Fault (List Variable) := g.neighbours.get x

/-- The number of neighbours of a variable. -/
def degree (g : Graph) (x : Variable) : Except Fault Nat := List.length <$> g.neighboursOf x

/-- Whether `y` is a neighbour of `x`. The neighbours of `x` are ascending, so the first that is not
below `y` decides. -/
def adjacent (g : Graph) (x y : Variable) : Except Fault Bool :=
  (fun row : List Variable ↦ (row.dropWhile (· < y)).head? == some y) <$> g.neighboursOf x

/-- Every edge once, its smaller end first, in lexicographic order. -/
def edges (g : Graph) : List (Variable × Variable) :=
  g.neighbours.pairs.flatMap fun (x, row) ↦ (row.filter (x < ·)).map fun y ↦ (x, y)

end Graph

end GraphSearch.Colouring
