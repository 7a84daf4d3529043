import GraphSearch.Colouring.Backtracking
import GraphSearch.Decimal.Shortest
import GraphSearch.Elapsed
import GraphSearch.StatisticLog.Sink

/-!
# The statistics of a search by name

The names under which the counts of a search are logged, in their order. The time that the search
took stands among them, in seconds.
-/

namespace GraphSearch.Colouring

open StatisticLog (Entry Logger)

/-- The counts of propagations, by name. -/
def Propagation.Statistics.entries (c : Propagation.Statistics) (l : Logger) : List Entry :=
  [l.entry "calls" (toString c.calls), l.entry "wipeouts" (toString c.wipeouts),
    l.entry "arcs_processed" (toString c.arcsProcessed),
    l.entry "revisions" (toString c.revisions), l.entry "values_pruned" (toString c.valuesPruned)]

/-- The counts of searches and the time they took, by name. -/
def Search.Statistics.entries (c : Search.Statistics) (time : Elapsed) (l : Logger) : List Entry :=
  [l.entry "nodes" (toString c.nodes), l.entry "backtracks" (toString c.backtracks),
    l.entry "domain_clones" (toString c.storeCopies), l.entry "peak_depth" (toString c.peakDepth),
    l.entry "solve_time" (Decimal.shortest time.seconds)] ++
    c.propagation.entries (l.attach "ac3")

end GraphSearch.Colouring
