import GraphSearch.Ascending
import GraphSearch.Choice
import GraphSearch.Colouring.ArcConsistency
import GraphSearch.Colouring.Assignment
import GraphSearch.Colouring.Backtracking
import GraphSearch.Colouring.Domain
import GraphSearch.Colouring.Event
import GraphSearch.Colouring.Graph
import GraphSearch.Colouring.Instance
import GraphSearch.Colouring.Options
import GraphSearch.Colouring.Selection
import GraphSearch.Colouring.Solution
import GraphSearch.Colouring.Solver
import GraphSearch.Colouring.Statistics
import GraphSearch.Colouring.Store
import GraphSearch.Colouring.TieBreaker
import GraphSearch.CommandLine.Colour
import GraphSearch.CommandLine.Grammar
import GraphSearch.CommandLine.Outcome
import GraphSearch.CommandLine.ShortestPath
import GraphSearch.CommandLine.Surroundings
import GraphSearch.Decimal.Places
import GraphSearch.Decimal.Shortest
import GraphSearch.Elapsed
import GraphSearch.Fault
import GraphSearch.Log
import GraphSearch.Main
import GraphSearch.Numeric.Binary64
import GraphSearch.Numeric.Rounding
import GraphSearch.Proofs.BrokenInstances
import GraphSearch.Proofs.Colouring.AnySelectors
import GraphSearch.Proofs.Colouring.AscendingDomains
import GraphSearch.Proofs.Colouring.AscendingGraph
import GraphSearch.Proofs.Colouring.Assembly
import GraphSearch.Proofs.Colouring.BuiltGraph
import GraphSearch.Proofs.Colouring.ClosedStore
import GraphSearch.Proofs.Colouring.Completions
import GraphSearch.Proofs.Colouring.Contracts
import GraphSearch.Proofs.Colouring.DecisionTrail
import GraphSearch.Proofs.Colouring.Decisions
import GraphSearch.Proofs.Colouring.DeclarationOrder
import GraphSearch.Proofs.Colouring.DeclaredGraph
import GraphSearch.Proofs.Colouring.EmptyDomains
import GraphSearch.Proofs.Colouring.ExplainedPruning
import GraphSearch.Proofs.Colouring.FewestRemaining
import GraphSearch.Proofs.Colouring.GuardedSearch
import GraphSearch.Proofs.Colouring.Handshake
import GraphSearch.Proofs.Colouring.Inertness
import GraphSearch.Proofs.Colouring.InstanceGrammar
import GraphSearch.Proofs.Colouring.LeastColouring
import GraphSearch.Proofs.Colouring.LeastConstraining
import GraphSearch.Proofs.Colouring.NarrowedNodes
import GraphSearch.Proofs.Colouring.NarrowingSaves
import GraphSearch.Proofs.Colouring.PropagationWork
import GraphSearch.Proofs.Colouring.Pruning
import GraphSearch.Proofs.Colouring.SafeSolving
import GraphSearch.Proofs.Colouring.SearchBalance
import GraphSearch.Proofs.Colouring.SearchTree
import GraphSearch.Proofs.Colouring.SolutionChecks
import GraphSearch.Proofs.Colouring.Solving
import GraphSearch.Proofs.Colouring.TieBreaking
import GraphSearch.Proofs.Colouring.TriedAssignments
import GraphSearch.Proofs.Colouring.WholePalette
import GraphSearch.Proofs.CommandLine.CarriedSettings
import GraphSearch.Proofs.CommandLine.ColouringLines
import GraphSearch.Proofs.CommandLine.ColouringProgram
import GraphSearch.Proofs.CommandLine.KnownFiles
import GraphSearch.Proofs.CommandLine.PathProgram
import GraphSearch.Proofs.Faultless
import GraphSearch.Proofs.Numeric.WholeNumbers
import GraphSearch.Proofs.Route.ConsistentEstimates
import GraphSearch.Proofs.Route.CostBounds
import GraphSearch.Proofs.Route.DeclaredNetwork
import GraphSearch.Proofs.Route.Distances
import GraphSearch.Proofs.Route.FrontierAccount
import GraphSearch.Proofs.Route.InstanceGrammar
import GraphSearch.Proofs.Route.LazyDeletion
import GraphSearch.Proofs.Route.Moments
import GraphSearch.Proofs.Route.Optimality
import GraphSearch.Proofs.Route.PathCost
import GraphSearch.Proofs.Route.Ranks
import GraphSearch.Proofs.Route.Reachability
import GraphSearch.Proofs.Route.RecordedNetwork
import GraphSearch.Proofs.Route.Retracing
import GraphSearch.Proofs.Route.Rounds
import GraphSearch.Proofs.Route.SharedExpansions
import GraphSearch.Proofs.Route.Waiting
import GraphSearch.Proofs.Route.Walks
import GraphSearch.Proofs.Route.WayBack
import GraphSearch.Proofs.Text.BrokenSources
import GraphSearch.Proofs.Text.Lines
import GraphSearch.Proofs.Text.Numerals
import GraphSearch.Route.Coordinate
import GraphSearch.Route.Estimate
import GraphSearch.Route.Event
import GraphSearch.Route.Exploration
import GraphSearch.Route.Frontier
import GraphSearch.Route.Instance
import GraphSearch.Route.Network
import GraphSearch.Route.Progress
import GraphSearch.Route.Report
import GraphSearch.StatisticLog.Casing
import GraphSearch.StatisticLog.Sink
import GraphSearch.Sum
import GraphSearch.Table
import GraphSearch.Text.Blank
import GraphSearch.Text.CaseTable
import GraphSearch.Text.CharRange
import GraphSearch.Text.Cluster
import GraphSearch.Text.ClusterTable
import GraphSearch.Text.Integer
import GraphSearch.Text.Letter
import GraphSearch.Text.MarkTable
import GraphSearch.Text.Source
