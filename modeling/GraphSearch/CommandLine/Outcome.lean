import GraphSearch.Fault
import GraphSearch.Log

/-!
# What a program leaves behind

A program ends with an exit code and the lines that it printed, results on one side and messages on
the other. The code is 0 for a result, 1 for an instance that could not be used, 2 for a command
line that was refused and 101 for a fault.
-/

namespace GraphSearch.CommandLine

/-- How a program ended. -/
structure Outcome where
  /-- The exit code. -/
  code : Nat
  /-- The lines of the result. -/
  output : List String := []
  /-- The lines of the log. -/
  messages : List String := []
deriving DecidableEq, Repr

/-- The least severe level that a program logs. -/
def leastLevel (verbose : Bool) : Log.Level := if verbose then .debug else .warn

namespace Outcome

/-- The version was asked for. -/
def version : Outcome := { code := 0, output := ["colouring-solver 0.1.0"] }

/-- The command line was refused. -/
def misuse (usage : String) : Outcome := { code := 2, messages := [s!"usage: {usage}"] }

/-- There is a result. -/
def result (verbose : Bool) (records : List Log.Record) (output : List String) : Outcome where
  code := 0
  output
  messages := Log.linesFrom (leastLevel verbose) records

/-- The program had to give up for the reason given. -/
def failure (verbose : Bool) (records : List Log.Record) (reason : String) : Outcome where
  code := 1
  messages :=
    Log.linesFrom (leastLevel verbose)
      (records ++ [⟨.error, s!"Execution failed, error: {reason}"⟩])

/-- A computation ended in a fault. -/
def fault (verbose : Bool) (records : List Log.Record) (e : Fault) : Outcome where
  code := 101
  messages := Log.linesFrom (leastLevel verbose) records ++ [e.message]

end Outcome

/-- The text that reports an instance that could not be used. -/
def invalidInstance (message : String) : String :=
  s!"The instance file was invalid, more details: {message}"

end GraphSearch.CommandLine
