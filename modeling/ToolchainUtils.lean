import ToolchainUtils.Transition
import ToolchainUtils.FairRuns
import ToolchainUtils.Halving
import ToolchainUtils.RemovingLoop
import ToolchainUtils.OutstandingWork
import ToolchainUtils.SortedDict
import ToolchainUtils.Randomised
import ToolchainUtils.Glob
import ToolchainUtils.BasicRegex
import ToolchainUtils.PyString
import ToolchainUtils.FailingFold
import ToolchainUtils.ItemByItem
import ToolchainUtils.UpdatedEntries
import ToolchainUtils.FileSystem
import ToolchainUtils.PosixPath
import ToolchainUtils.Procedure
import ToolchainUtils.AtomicCalls
import ToolchainUtils.HardLinks
import ToolchainUtils.Backtracking
import ToolchainUtils.Relabelling
import ToolchainUtils.FreshDraws
import ToolchainUtils.TextReplace
import ToolchainUtils.TextOverlaps
import ToolchainUtils.GroupedFold
import ToolchainUtils.NestedTotals
import ToolchainUtils.RunningBest
import ToolchainUtils.AbsoluteDistance
import ToolchainUtils.GreedyRegex
import ToolchainUtils.MarkPairing
import ToolchainUtils.SortedGroups
import ToolchainUtils.TableGrids
import ToolchainUtils.ShellLanguage.Lexer
import ToolchainUtils.ShellLanguage.Parser
import ToolchainUtils.ShellLanguage.Programs
import ToolchainUtils.ShellLanguage.Reading
import ToolchainUtils.ShellLanguage.Builtins
import ToolchainUtils.ShellLanguage.ScriptFiles
import ToolchainUtils.BinarySearchTool.Searcher
import ToolchainUtils.BinarySearchTool.SearchLoop
import ToolchainUtils.BinarySearchTool.BoundarySearch
import ToolchainUtils.BinarySearchTool.State
import ToolchainUtils.BinarySearchTool.Environment
import ToolchainUtils.BinarySearchTool.Prune
import ToolchainUtils.BinarySearchTool.Resume
import ToolchainUtils.BinarySearchTool.StateFile
import ToolchainUtils.BinarySearchTool.SearchSteps
import ToolchainUtils.BinarySearchTool.FoundItems
import ToolchainUtils.BinarySearchTool.Switching
import ToolchainUtils.BinarySearchTool.BisectDriver
import ToolchainUtils.BinarySearchTool.ObjectCaches
import ToolchainUtils.BinarySearchTool.WhichCache
import ToolchainUtils.BinarySearchTool.SearchSimulation
import ToolchainUtils.BinarySearchTool.PackageTrees
import ToolchainUtils.BinarySearchTool.PackageBisection
import ToolchainUtils.BinarySearchTool.PackageSetup
import ToolchainUtils.BinarySearchTool.RestoredTree
import ToolchainUtils.Automation.Machine
import ToolchainUtils.Automation.MachineManager
import ToolchainUtils.Automation.MachineHolders
import ToolchainUtils.Automation.Job
import ToolchainUtils.Automation.JobManager
import ToolchainUtils.Automation.JobStarts
import ToolchainUtils.Automation.HeldMachines
import ToolchainUtils.Automation.WakeUps
import ToolchainUtils.Automation.JobGroupManager
import ToolchainUtils.Automation.ExecuterAges
import ToolchainUtils.Automation.GroupKills
import ToolchainUtils.Automation.JobProgress
import ToolchainUtils.Automation.GroupStatuses
import ToolchainUtils.Automation.JobExecuter
import ToolchainUtils.Automation.EventHistory
import ToolchainUtils.Automation.EventReports
import ToolchainUtils.Automation.Command
import ToolchainUtils.Automation.CommandMeaning
import ToolchainUtils.Automation.RenderedCommands
import ToolchainUtils.Automation.JoinedLines
import ToolchainUtils.Automation.Wrapper
import ToolchainUtils.Automation.WrapperOptions
import ToolchainUtils.FileLockMachine.LockFile
import ToolchainUtils.FileLockMachine.Exclusion
import ToolchainUtils.FileLockMachine.Takeover
import ToolchainUtils.FileLockMachine.TryLock
import ToolchainUtils.AfeLockMachine.LockManager
import ToolchainUtils.AfeLockMachine.MachineNames
import ToolchainUtils.AfeLockMachine.LockUpdates
import ToolchainUtils.AfeLockMachine.LockChecks
import ToolchainUtils.AfeLockMachine.LockCommands
import ToolchainUtils.Crosperf.MachineImageManager
import ToolchainUtils.Crosperf.InitialAllocation
import ToolchainUtils.Crosperf.FewestReimages
import ToolchainUtils.Crosperf.ImageHandout
import ToolchainUtils.Crosperf.CacheReaders
import ToolchainUtils.Crosperf.Schedv2
import ToolchainUtils.Crosperf.RunsOnce
import ToolchainUtils.Crosperf.TerminatedRuns
import ToolchainUtils.Crosperf.LabelMachines
import ToolchainUtils.Crosperf.LockedMachines
import ToolchainUtils.Crosperf.MachineManager
import ToolchainUtils.Crosperf.ImagedMachines
import ToolchainUtils.Crosperf.MachineOwnership
import ToolchainUtils.Crosperf.BenchmarkRun
import ToolchainUtils.Crosperf.RunTimeline
import ToolchainUtils.Crosperf.ProgressCounts
import ToolchainUtils.Crosperf.ResultsCache
import ToolchainUtils.Crosperf.CacheKeys
import ToolchainUtils.Crosperf.Result
import ToolchainUtils.Crosperf.CachedResults
import ToolchainUtils.Crosperf.ExperimentFile
import ToolchainUtils.Crosperf.ExperimentLines
import ToolchainUtils.Crosperf.CanonicalFile
import ToolchainUtils.Crosperf.Canonicalize
import ToolchainUtils.Crosperf.ExperimentComments
import ToolchainUtils.Crosperf.JsonResults
import ToolchainUtils.Crosperf.ResultsOrganizer
import ToolchainUtils.Crosperf.OrganizedSlots
import ToolchainUtils.Crosperf.OrganizedResults
import ToolchainUtils.Crosperf.RepeatedKeys
import ToolchainUtils.Crosperf.ExpandedRuns
import ToolchainUtils.Crosperf.PerfTable
import ToolchainUtils.Crosperf.CompletePerfTable
import ToolchainUtils.Crosperf.JsonReport
import ToolchainUtils.Crosperf.ReportedSlots
import ToolchainUtils.Crosperf.ReportedRuns
import ToolchainUtils.Crosperf.CommonChecksum
import ToolchainUtils.Crosperf.CacheReading
import ToolchainUtils.Crosperf.ImageDownloader
import ToolchainUtils.Crosperf.DownloadRules
import ToolchainUtils.Crosperf.DownloadedImages
import ToolchainUtils.Crosperf.DownloadedPackages
import ToolchainUtils.Crosperf.ExperimentRunner
import ToolchainUtils.Crosperf.LockSessions
import ToolchainUtils.Crosperf.ExclusiveMachines
import ToolchainUtils.CrosUtils.TableGenerator
import ToolchainUtils.CrosUtils.TableFormatter
import ToolchainUtils.CrosUtils.AlignedHeaders
import ToolchainUtils.CrosUtils.RatioColors
import ToolchainUtils.CrosUtils.StreamHandler
import ToolchainUtils.CrosUtils.SimpleTable
import ToolchainUtils.CrosUtils.PerfDiff
import ToolchainUtils.Crb.TableFormatter
import ToolchainUtils.Crb.TransposedTable
import ToolchainUtils.FdoScripts.SummarizeHotBlocks
import ToolchainUtils.Bestflags.Generation
import ToolchainUtils.Bestflags.Steering
import ToolchainUtils.Bestflags.SteeringAccounts
import ToolchainUtils.Bestflags.Flags
import ToolchainUtils.Bestflags.Algorithm
import ToolchainUtils.Bestflags.HillClimbing
import ToolchainUtils.Bestflags.IterativeElimination
import ToolchainUtils.Bestflags.FlagUniverse
import ToolchainUtils.Bestflags.GeneticAlgorithm
import ToolchainUtils.Bestflags.MutatedFlags
import ToolchainUtils.Bestflags.FlagRanges
import ToolchainUtils.Bestflags.AlgorithmRuns
import ToolchainUtils.Bestflags.HillClimbingRuns
import ToolchainUtils.Bestflags.EliminationRuns
import ToolchainUtils.Bestflags.GeneticRuns
import ToolchainUtils.Bestflags.ExhaustedNeighbourhoods
import ToolchainUtils.Bestflags.EliminationChain
import ToolchainUtils.Bestflags.TaskWork
import ToolchainUtils.Bestflags.CompletedTask
import ToolchainUtils.Bestflags.Pipeline
import ToolchainUtils.Bestflags.PipelineMoves
import ToolchainUtils.Bestflags.PipelineRuns
import ToolchainUtils.Bestflags.PipelineProgress
import ToolchainUtils.Bestflags.PipelineWork
import ToolchainUtils.Bestflags.PipelinePill
import ToolchainUtils.Bestflags.HillClimbingOptimum
import ToolchainUtils.Bestflags.FullGenerations
import ToolchainUtils.Bestflags.NeighbourSymmetry
import ToolchainUtils.DejaGnu.TestResult
import ToolchainUtils.DejaGnu.TestRun
import ToolchainUtils.DejaGnu.Manifest
import ToolchainUtils.DejaGnu.FlakyEntries
import ToolchainUtils.DejaGnu.ResultText
import ToolchainUtils.DejaGnu.PrintedResult
import ToolchainUtils.DejaGnu.SettledResult
import ToolchainUtils.DejaGnu.RoundTrip
import ToolchainUtils.DejaGnu.AcceptedBuild
import ToolchainUtils.DejaGnu.RecordedLines
import ToolchainUtils.DejaGnu.CleanedResults
import ToolchainUtils.UserActivityBenchmarks.FunctionKeys
import ToolchainUtils.UserActivityBenchmarks.KeyCommas
import ToolchainUtils.UserActivityBenchmarks.FunctionGroups
import ToolchainUtils.UserActivityBenchmarks.GroupTotals
import ToolchainUtils.UserActivityBenchmarks.BenchmarkMetrics
import ToolchainUtils.UserActivityBenchmarks.MetricDefinitions
import ToolchainUtils.UserActivityBenchmarks.MetricInvariance
import ToolchainUtils.UserActivityBenchmarks.MetricDivisions
import ToolchainUtils.UserActivityBenchmarks.OptimalSets
import ToolchainUtils.UserActivityBenchmarks.CommonFunctions
import ToolchainUtils.UserActivityBenchmarks.FunctionDistance
import ToolchainUtils.UserActivityBenchmarks.MetricsPipeline
