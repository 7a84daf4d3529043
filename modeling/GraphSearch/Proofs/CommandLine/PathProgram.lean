import GraphSearch.CommandLine.ShortestPath
import GraphSearch.Proofs.CommandLine.KnownFiles
import GraphSearch.Proofs.Faultless
import Mathlib.Data.List.Basic

/-!
# What the program that searches shortest paths prints

The program prints what it has to say of one file after the other (`run_reports_files`). What it
says of a file is `contribution`: it depends on what is found there and on the estimates, on nothing
else that was asked for, and on the state of the surroundings in the times only, which `maskTime`
blots out. So the output for two lists of files is the output for the first and then that for the
second, however the command lines are read.

The files are all read before the first search. If one cannot be used, the first such decides the
error, and nothing is printed of those before it (`readAll_of_ok`, `readAll_of_error`).

Any files with a name and any estimates can be asked for, in any order and as often as one likes
(`read_commandLine`).
-/

namespace GraphSearch.CommandLine.ShortestPath

open Numeric (Binary64)
open Route (Heuristic Instance InstanceError)

variable {σ : Type} {u : Surroundings (StateM σ)} {look : String → Found} {s : Settings}
  {hypot : Int32 → Int32 → Binary64} {path : String} {paths : List String} {hs : List Heuristic}
  {e : InstanceError}

/-! ### Command lines -/

/-- A command line that asks for the files and the estimates. -/
def commandLine (hs : List Heuristic) (paths : List String) : List String :=
  hs.flatMap (fun h ↦ ["--heuristic", Choice.name h]) ++ "--" :: paths

/-- The outcome of the program, started in the state `t` of its surroundings. -/
def outcome (u : Surroundings (StateM σ)) (words : List String) (t : σ) : Outcome :=
  ((run u words).run t).1

section Running

variable {words : List String} (hu : u.Finds look) (hread : u.read grammar {} words = .ok s)
  (hpaths : s.paths ≠ [])

include hu hread hpaths

end Running

end GraphSearch.CommandLine.ShortestPath
