import GraphSearch.Colouring.Instance
import GraphSearch.Colouring.Solver
import GraphSearch.Colouring.Statistics
import GraphSearch.CommandLine.Grammar
import GraphSearch.CommandLine.Outcome
import GraphSearch.CommandLine.Surroundings

/-!
# The program that colours a graph

It reads one instance, colours it and prints the colour of each label, or that there is no
colouring. On request it prints the statistics of the search as well. Before a colouring is printed
it is checked against the graph once more.
-/

namespace GraphSearch.CommandLine.Colour

open Colouring (Graph Instance Options Run Solution ValueSelection VariableSelection)
open StatisticLog (Casing Sink)

/-- What the command line says. -/
structure Settings where
  /-- The path of the instance. -/
  path : Option String := none
  /-- Which variable is coloured next, if that was said. -/
  variableSelection : Option VariableSelection := none
  /-- In which order its colours are tried, if that was said. -/
  valueSelection : Option ValueSelection := none
  /-- Whether a colour that is tried becomes the only one of its variable. -/
  narrow : Bool := false
  /-- Whether statistics are printed. -/
  statistics : Bool := false
  /-- Whether the log is printed from the level of outcomes on. -/
  verbose : Bool := false
deriving DecidableEq, Repr

namespace Settings

/-- Takes up the path, which must not be empty. -/
def setPath (text : String) (s : Settings) : Option Settings :=
  if s.path.isSome || text.isEmpty then none else some { s with path := some text }

/-- Takes up the choice of the next variable. -/
def setVariableSelection (text : String) (s : Settings) : Option Settings :=
  if s.variableSelection.isSome then none
  else (Choice.ofName? false text).map fun x ↦ { s with variableSelection := some x }

/-- Takes up the order of the colours. -/
def setValueSelection (text : String) (s : Settings) : Option Settings :=
  if s.valueSelection.isSome then none
  else (Choice.ofName? false text).map fun x ↦ { s with valueSelection := some x }

/-- Takes up that colours that are tried become the only ones. -/
def setNarrow (s : Settings) : Option Settings :=
  if s.narrow then none else some { s with narrow := true }

/-- Takes up that statistics are printed. -/
def setStatistics (s : Settings) : Option Settings :=
  if s.statistics then none else some { s with statistics := true }

/-- Takes up that the log is printed. -/
def setVerbose (s : Settings) : Option Settings :=
  if s.verbose then none else some { s with verbose := true }

/-- The settings of the search. What was not said is as it is without a command line. -/
def options (s : Settings) : Options :=
  let standard : Options := {}
  { variableSelection := s.variableSelection.getD standard.variableSelection
    valueSelection := s.valueSelection.getD standard.valueSelection
    narrow := s.narrow }

end Settings

/-- The command line of the program. No setting may be given twice. -/
def grammar : Grammar Settings where
  option
    | "variable-selection" => some (.value Settings.setVariableSelection)
    | "value-selection" => some (.value Settings.setValueSelection)
    | "propagate-assignments" => some (.switch Settings.setNarrow)
    | "log-statistics" => some (.switch Settings.setStatistics)
    | "verbose" => some (.switch Settings.setVerbose)
    | "version" => some .version
    | _ => none
  letter
    | 's' => some (.switch Settings.setStatistics)
    | 'v' => some (.switch Settings.setVerbose)
    | 'V' => some .version
    | _ => none
  operand := Settings.setPath

/-- How the program is used. -/
def usage : String :=
  "colour [--variable-selection NAME] [--value-selection NAME] [--propagate-assignments] " ++
    "[-s | --log-statistics] [-v | --verbose] [-V | --version] INSTANCE"

/-- Where the statistics go. -/
def statisticSink (s : Settings) : Sink Unit :=
  if s.statistics then
    Sink.configure {} ⟨"%%%colouring-stat:", some "%%%colouring-stat-end", some .camel, ()⟩
  else {}

/-- The lines of the statistics. -/
def statisticLines (s : Settings) (r : Run) (time : Elapsed)
    (recase : Casing → String → String) : List String :=
  let sink := statisticSink s
  [sink.log (r.statistics.entries time {}) recase, sink.close].flatMap fun written ↦
    (written.map Prod.snd).getD []

/-- The lines of a colouring, or the line that says that there is none. -/
def solutionLines : Option Solution → List String
  | some s => s.pairs.map fun (u, c) ↦ s!"Var {u} -> Color {c}"
  | none => ["failure"]

/-- Checks that a solution colours all of the graph, and no edge with one colour only. -/
def verify (g : Graph) : Option Solution → Except Fault Unit
  | none => return
  | some s => do
    unless ← s.isCompleteFor g do throw .rejectedSolution
    unless (← s.violated g).isEmpty do throw .rejectedSolution

/-- Searches and checks. -/
def search (s : Settings) (i : Instance) : Except Fault Run := do
  let r ← Colouring.solve i.graph i.palette s.options
  verify i.graph r.solution
  return r

/-- What is logged first. -/
def greeting : Log.Record := ⟨.info, "Logging successfully configured"⟩

/-- What is logged of an instance that was read. -/
def readRecord (path : String) (i : Instance) : Log.Record :=
  ⟨.info, s!"Read {path} with {i.graph.size} vertices, {i.graph.edgeCount} edges and " ++
    s!"{i.palette} colours"⟩

variable {m : Type → Type} [Monad m]

/-- Colours the instance that was found under the path. -/
def colour (u : Surroundings m) (s : Settings) (path : String) : m Outcome := do
  match ← u.look path with
  | .directory => return .failure s.verbose [greeting] s!"The file {path} is not supported."
  | found =>
    match Instance.parse found.source with
    | .error e => return .failure s.verbose [greeting] (invalidInstance e.message)
    | .ok i =>
      let records := greeting :: i.events.map (·.record) ++ [readRecord path i]
      match ← u.time fun _ ↦ search s i with
      | (.error e, _) => return .fault s.verbose records e
      | (.ok r, time) =>
        return .result s.verbose (records ++ r.events.map (·.record))
          (solutionLines r.solution ++ statisticLines s r time u.recase)

/-- Runs the program on a command line. -/
def run (u : Surroundings m) (words : List String) : m Outcome :=
  match u.read grammar {} words with
  | .error .version => return .version
  | .error .misuse => return .misuse usage
  | .ok s =>
    match s.path with
    | some path => colour u s path
    | none => return .misuse usage

end GraphSearch.CommandLine.Colour
