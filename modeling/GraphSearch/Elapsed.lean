import GraphSearch.Numeric.Binary64

/-!
# Measured times

A time is measured in whole nanoseconds and reported in seconds. The seconds are a number in double
precision: the whole seconds, plus the nearest number to the rest, rounded once more.
-/

namespace GraphSearch

/-- A measured time. -/
structure Elapsed where
  /-- The number of nanoseconds. -/
  nanoseconds : Nat
deriving DecidableEq, Repr

/-- The number of nanoseconds in a second. -/
def nanosecondsPerSecond : Nat := 1000000000

/-- The time in seconds. -/
def Elapsed.seconds (t : Elapsed) : Numeric.Binary64 :=
  .ofNat (t.nanoseconds / nanosecondsPerSecond) +
    .ofRatio (t.nanoseconds % nanosecondsPerSecond) nanosecondsPerSecond

end GraphSearch
