import GraphSearch.CommandLine.Colour
import GraphSearch.CommandLine.ShortestPath

/-!
# The programs of this library

The first word of the command line chooses the program, and the rest goes to it.
-/

namespace GraphSearch.CommandLine

/-- Looks at a path of the file system. -/
def lookAt (path : String) : IO Found := do
  try
    let place ← IO.FS.realPath path
    if ← place.isDir then return .directory
    let bytes ← IO.FS.readBinFile path
    return .file { bytes := bytes.toList }
  catch
    | .noFileOrDirectory .. => return .nothing
    | e => return .file (.failing (.failed (toString e)))

/-- Evaluates and takes the time by the clock of the system. -/
def clock {α : Type} (run : Unit → α) : IO (α × Elapsed) := do
  let start ← IO.monoNanosNow
  let result ← IO.lazyPure run
  let stop ← IO.monoNanosNow
  return (result, ⟨stop - start⟩)

/-- The system on which the program runs. -/
def system : Surroundings IO where
  look := lookAt
  time := clock

/-- Prints what a program leaves behind, and gives its exit code. -/
def Outcome.print (o : Outcome) : IO UInt32 := do
  o.messages.forM IO.eprintln
  o.output.forM IO.println
  return o.code.toUInt32

end GraphSearch.CommandLine

open GraphSearch.CommandLine in
/-- Runs the program that the first word names. -/
def main (words : List String) : IO UInt32 := do
  let outcome ← match words with
    | "colour" :: rest => Colour.run system rest
    | "shortest-path" :: rest => ShortestPath.run system rest
    | _ => pure (.misuse "colour ... | shortest-path ...")
  outcome.print
