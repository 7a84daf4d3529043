import GraphSearch.Route.Event
import GraphSearch.Text.Integer
import GraphSearch.Text.Source

/-!
# Pathfinding instances as text

An instance is written one statement to the line: `S,1` says where the path begins and `D,5` where
it ends, `4,37` gives the vertex `4` the place packed into the cell `37`, and `4,7,12` is an edge of
weight `12`. A later statement on the start, the goal or the place of a vertex replaces an earlier
one; an edge is added to those before.

The first statement that is wrong decides the error, and of a statement that is wrong in several
ways the first number that is. That there is no start or no goal only shows at the end.
-/

namespace GraphSearch.Route

open Text (ReadError Source Statement)

/-- A network and the ends of the path to be found. -/
structure Instance where
  /-- Where the path is to run. -/
  network : Network
  /-- Where it is to begin. -/
  start : Vertex
  /-- Where it is to end. -/
  goal : Vertex

/-- Why a text is not an instance. -/
inductive InstanceError where
  /-- A line could not be read. -/
  | unreadable (cause : ReadError)
  /-- A number is not an integer that fits. -/
  | invalidInteger (line : Nat) (token : String)
  /-- The line has none of the four forms. -/
  | malformedLine (line : Nat) (content : String)
  /-- It was never said where the path begins. -/
  | missingStart
  /-- It was never said where the path ends. -/
  | missingGoal
  /-- A weight is below zero. -/
  | negativeWeight (line : Nat) (weight : Int)
deriving DecidableEq, Repr

/-- The text that reports an error. -/
def InstanceError.message : InstanceError → String
  | unreadable e => s!"failed to read instance: {e.cause}"
  | invalidInteger l t => s!"line {l}: '{t}' is not a valid integer"
  | malformedLine l c =>
    s!"line {l}: '{c}' is neither a start, goal, vertex, nor edge declaration"
  | missingStart => "the instance does not declare a start vertex ('S,<id>')"
  | missingGoal => "the instance does not declare a goal vertex ('D,<id>')"
  | negativeWeight l w => s!"line {l}: edge weight {w} is negative"

namespace Instance

/-- What has been read so far. -/
structure Draft where
  /-- Where the path begins, once it was said. -/
  start : Option Vertex := none
  /-- Where the path ends, once it was said. -/
  goal : Option Vertex := none
  /-- The vertices and edges. -/
  network : Network := {}

/-- Reads the number of a vertex or of a cell, which has 32 bits. -/
def readNumber (line : Nat) (token : List Char) : Except InstanceError Int32 :=
  match Text.signedOfWidth? 32 token with
  | some n => .ok (Int32.ofInt n)
  | none => .error (.invalidInteger line (String.ofList token))

/-- Reads a weight. A number below zero is told apart from one that is too large, as long as it has
no more than 64 bits. -/
def readWeight (line : Nat) (token : List Char) : Except InstanceError UInt32 :=
  match Text.signedOfWidth? 64 token with
  | none => .error (.invalidInteger line (String.ofList token))
  | some w =>
    if w < 0 then .error (.negativeWeight line w)
    else if w < UInt32.size then .ok w.toNat.toUInt32
    else .error (.invalidInteger line (String.ofList token))

/-- Takes up a statement. -/
def readStatement (d : Draft) (st : Statement) : Except InstanceError Draft :=
  match Text.fields st.text with
  | [['S'], v] => do return { d with start := some (← readNumber st.line v) }
  | [['D'], v] => do return { d with goal := some (← readNumber st.line v) }
  | [v, cell] => do
    let v ← readNumber st.line v
    let cell ← readNumber st.line cell
    return { d with network := d.network.addVertex v (.ofCell cell) }
  | [u, v, w] => do
    let u ← readNumber st.line u
    let v ← readNumber st.line v
    let w ← readWeight st.line w
    return { d with network := d.network.addEdge u v w }
  | _ => .error (.malformedLine st.line (String.ofList st.text))

/-- Takes up the next entry of a source. -/
def readEntry (d : Draft) : Except ReadError Statement → Except InstanceError Draft
  | .ok st => readStatement d st
  | .error e => .error (.unreadable e)

/-- The instance that is written in the source. -/
def parse (source : Source) : Except InstanceError Instance := do
  let d ← source.statements.foldlM readEntry {}
  match d.start with
  | none => throw .missingStart
  | some start =>
    match d.goal with
    | none => throw .missingGoal
    | some goal => return ⟨d.network, start, goal⟩

/-- What there is to be said of an instance that was read. -/
def events (i : Instance) : List Event := [.parsed i.network.size i.start i.goal]

end Instance

end GraphSearch.Route
