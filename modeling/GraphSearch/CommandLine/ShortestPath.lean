import GraphSearch.CommandLine.Grammar
import GraphSearch.CommandLine.Outcome
import GraphSearch.CommandLine.Surroundings
import GraphSearch.Route.Instance
import GraphSearch.Route.Report

/-!
# The program that searches shortest paths

It reads one instance or more and prints for each the reports of its searches, one for each estimate
that was asked for, or for all of them if none was. All instances are read before the first search,
so that nothing is printed if one of them cannot be used.
-/

namespace GraphSearch.CommandLine.ShortestPath

open Route (Heuristic Instance InstanceError)

/-- What the command line says. -/
structure Settings where
  /-- The paths of the instances. -/
  paths : List String := []
  /-- The estimates that were asked for. -/
  heuristics : List Heuristic := []
  /-- Whether the log is printed from the level of outcomes on. -/
  verbose : Bool := false
deriving DecidableEq, Repr

namespace Settings

/-- Takes up a path, which must not be empty. -/
def addPath (text : String) (s : Settings) : Option Settings :=
  if text.isEmpty then none else some { s with paths := s.paths ++ [text] }

/-- Takes up an estimate. -/
def addHeuristic (text : String) (s : Settings) : Option Settings :=
  (Choice.ofName? false text).map fun h ↦ { s with heuristics := s.heuristics ++ [h] }

/-- Takes up that the log is printed. -/
def setVerbose (s : Settings) : Option Settings :=
  if s.verbose then none else some { s with verbose := true }

/-- The estimates with which to search. -/
def searches (s : Settings) : List Heuristic :=
  if s.heuristics.isEmpty then Choice.all else s.heuristics

end Settings

/-- The command line of the program. Paths and estimates may be given any number of times. -/
def grammar : Grammar Settings where
  option
    | "heuristic" => some (.value Settings.addHeuristic)
    | "verbose" => some (.switch Settings.setVerbose)
    | "version" => some .version
    | _ => none
  letter
    | 'v' => some (.switch Settings.setVerbose)
    | 'V' => some .version
    | _ => none
  operand := Settings.addPath

/-- How the program is used. -/
def usage : String :=
  "shortest-path [--heuristic NAME]... [-v | --verbose] [-V | --version] INSTANCE..."

/-- Reads the instances up to the first that cannot be used. What is logged of those before it comes
with the result. -/
def readAll :
    List (String × Found) → List Log.Record × Except InstanceError (List (String × Instance))
  | [] => ([], .ok [])
  | (path, found) :: rest =>
    match Instance.parse found.source with
    | .error e => ([], .error e)
    | .ok i =>
      let (records, instances) := readAll rest
      (i.events.map (·.record) ++ records, instances.map ((path, i) :: ·))

/-- What is logged when the searches of an instance begin. -/
def searchRecord (path : String) (i : Instance) : Log.Record :=
  ⟨.info, s!"Searching {path} from {i.start} to {i.goal}"⟩

/-- What was logged and printed. -/
structure Account where
  /-- What was logged. -/
  records : List Log.Record := []
  /-- The lines that were printed. -/
  lines : List String := []

/-- One account after the other. -/
def Account.append (a b : Account) : Account := ⟨a.records ++ b.records, a.lines ++ b.lines⟩

/-- The accounts in their order. -/
def Account.flatten (accounts : List Account) : Account := accounts.foldr Account.append {}

variable {m : Type → Type} [Monad m]

/-- Searches an instance with one estimate. The report follows an empty line. -/
def search (u : Surroundings m) (i : Instance) (h : Heuristic) : m Account := do
  let (found, time) ← u.time fun _ ↦
    Route.shortestPath i.network i.start i.goal h fun a b ↦ h.estimate a b u.hypot
  return ⟨found.events.map (·.record), "" :: Route.report h found.outcome time⟩

/-- Searches an instance with each of the estimates. An empty line ends the account of it. -/
def searchAll (u : Surroundings m) (s : Settings) (path : String) (i : Instance) : m Account := do
  let accounts ← s.searches.mapM (search u i)
  return .flatten
    ([⟨[searchRecord path i], [s!"INSTANCE: {path}"]⟩] ++ accounts ++ [⟨[], [""]⟩])

/-- Runs the program on a command line. -/
def run (u : Surroundings m) (words : List String) : m Outcome :=
  match u.read grammar {} words with
  | .error .version => return .version
  | .error .misuse => return .misuse usage
  | .ok s => do
    if s.paths.isEmpty then return .misuse usage
    let found ← s.paths.mapM u.look
    match readAll (s.paths.zip found) with
    | (records, .error e) => return .failure s.verbose records (invalidInstance e.message)
    | (records, .ok instances) =>
      let accounts ← instances.mapM fun (path, i) ↦ searchAll u s path i
      let account := Account.flatten accounts
      return .result s.verbose (records ++ account.records) account.lines

end GraphSearch.CommandLine.ShortestPath
