import GraphSearch.Colouring.Event
import GraphSearch.Text.Integer
import GraphSearch.Text.Source

/-!
# Colouring instances as text

An instance is written one statement to the line: `colors=3` says how many colours there are, which
must be said exactly once, `4,7` declares an edge and `5` a vertex.

The first statement that is wrong decides the error, and of a statement that is wrong in several
ways the first thing that is. That the number of colours is missing only shows at the end, so any
other error comes before it.
-/

namespace GraphSearch.Colouring

open Text (ReadError Source Statement)

/-- A graph and the number of colours for it. -/
structure Instance where
  /-- The graph to be coloured. -/
  graph : Graph
  /-- The number of colours. -/
  palette : Nat
deriving DecidableEq, Repr

/-- Why a text is not an instance. -/
inductive InstanceError where
  /-- A line could not be read. -/
  | unreadable (cause : ReadError)
  /-- The number of colours is not a number that fits. -/
  | invalidPalette (line : Nat) (token : String)
  /-- The number of colours was given before. -/
  | duplicatePalette (line : Nat)
  /-- The number of colours was never given. -/
  | missingPalette
  /-- A label is not an integer that fits. -/
  | invalidLabel (line : Nat) (token : String)
  /-- The line has none of the three forms. -/
  | malformedLine (line : Nat) (content : String)
  /-- An edge joins a vertex to itself. -/
  | selfLoop (line : Nat) (label : Label)
deriving DecidableEq, Repr

/-- The text that reports an error. -/
def InstanceError.message : InstanceError → String
  | unreadable e => s!"failed to read instance: {e.cause}"
  | invalidPalette l t => s!"line {l}: '{t}' is not a valid palette size"
  | duplicatePalette l => s!"line {l}: the palette size is declared more than once"
  | missingPalette => "the instance does not declare a palette size ('colors=K')"
  | invalidLabel l t => s!"line {l}: '{t}' is not a valid vertex label"
  | malformedLine l c =>
    s!"line {l}: '{c}' is neither a palette, an edge, nor a vertex declaration"
  | selfLoop l u => s!"line {l}: vertex {u} cannot be adjacent to itself"

namespace Instance

/-- What has been read so far. -/
structure Draft where
  /-- The number of colours, once it was given. -/
  palette : Option Nat := none
  /-- The vertices and edges. -/
  declared : Declarations := {}
deriving DecidableEq, Repr

/-- The key of the statement that gives the number of colours. -/
def paletteKey : List Char := ['c', 'o', 'l', 'o', 'r', 's']

/-- Reads a label, which has 32 bits. -/
def readLabel (line : Nat) (token : List Char) : Except InstanceError Label :=
  match Text.signedOfWidth? 32 token with
  | some u => .ok u
  | none => .error (.invalidLabel line (String.ofList token))

/-- Takes up a statement with an equals sign. -/
def readPalette (d : Draft) (st : Statement) : Except InstanceError Draft :=
  let key := Text.trim (st.text.takeWhile (· != '='))
  let value := Text.trim ((st.text.dropWhile (· != '=')).drop 1)
  if key ≠ paletteKey then .error (.malformedLine st.line (String.ofList st.text))
  else if d.palette.isSome then .error (.duplicatePalette st.line)
  else
    match Text.unsignedOfWidth? 32 value with
    | some k => .ok { d with palette := some k }
    | none => .error (.invalidPalette st.line (String.ofList value))

/-- Takes up a statement. -/
def readStatement (d : Draft) (st : Statement) : Except InstanceError Draft :=
  if st.text.contains '=' then readPalette d st
  else
    match Text.fields st.text with
    | [u] => do
      let u ← readLabel st.line u
      return { d with declared := d.declared.addVertex u }
    | [u, v] => do
      let u ← readLabel st.line u
      let v ← readLabel st.line v
      match d.declared.addEdge u v with
      | .ok declared => return { d with declared }
      | .error e => throw (.selfLoop st.line e.label)
    | _ => .error (.malformedLine st.line (String.ofList st.text))

/-- Takes up the next entry of a source. -/
def readEntry (d : Draft) : Except ReadError Statement → Except InstanceError Draft
  | .ok st => readStatement d st
  | .error e => .error (.unreadable e)

/-- The instance that is written in the source. -/
def parse (source : Source) : Except InstanceError Instance := do
  let d ← source.statements.foldlM readEntry {}
  match d.palette with
  | some palette => return ⟨d.declared.graph, palette⟩
  | none => throw .missingPalette

/-- What there is to be said of an instance that was read. -/
def events (i : Instance) : List Event :=
  [.built i.graph.size i.graph.edgeCount, .parsed i.graph.size i.graph.edgeCount i.palette]

end Instance

end GraphSearch.Colouring
