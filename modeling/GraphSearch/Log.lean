/-!
# Log records

Computations do not write to a log: they return what there is to be said as data, and a record is
made of it at the edge. A record has a level, and a reader asks for all records of a level and the
more severe ones.
-/

namespace GraphSearch.Log

/-- How much a record matters, from the least severe to the most. -/
inductive Level where
  /-- A single step of a computation. -/
  | trace
  /-- The outcome of a computation. -/
  | debug
  /-- What the program is doing, for its user. -/
  | info
  /-- An input that is accepted although it is probably not meant. -/
  | warn
  /-- The program gives up. -/
  | error
deriving DecidableEq, Repr

namespace Level

/-- The place of a level in the order of severity. -/
def severity : Level → Nat
  | trace => 0
  | debug => 1
  | info => 2
  | warn => 3
  | error => 4

/-- The name under which a level is printed. -/
def name : Level → String
  | trace => "TRACE"
  | debug => "DEBUG"
  | info => "INFO"
  | warn => "WARN"
  | error => "ERROR"

end Level

/-- One line of a log. -/
structure Record where
  /-- How much the record matters. -/
  level : Level
  /-- What it says. -/
  text : String
deriving DecidableEq, Repr

namespace Record

/-- The record as a line of text, led by its level. -/
def line (r : Record) : String := s!"[{r.level.name}] {r.text}"

end Record

/-- The lines of those records that are of the given level or more severe. -/
def linesFrom (least : Level) (records : List Record) : List String :=
  (records.filter fun r ↦ least.severity ≤ r.level.severity).map Record.line

end GraphSearch.Log
