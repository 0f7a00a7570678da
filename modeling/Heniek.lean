import Heniek.AccountCapacity
import Heniek.AccountScheduling
import Heniek.AppliedCandidates
import Heniek.AttemptSettlement
import Heniek.AuditTrace
import Heniek.AuthCanonical
import Heniek.BridgeModel
import Heniek.CancellationRuns
import Heniek.CandidateAttempts
import Heniek.CanonicalCut
import Heniek.CanonicalForm
import Heniek.CanonicalJson
import Heniek.CanonicalPayloads
import Heniek.CanonicalScan
import Heniek.CanonicalState
import Heniek.CanonicalTexts
import Heniek.CapacityLeases
import Heniek.CharacterClass
import Heniek.ChunkedDecoding
import Heniek.ConcurrencyCap
import Heniek.ConditionGrammar
import Heniek.ConditionParser
import Heniek.ConditionTokens
import Heniek.ConfigurationEdits
import Heniek.ConfigurationFold
import Heniek.ConfigurationLayers
import Heniek.ConfigurationLeaves
import Heniek.ConfigurationMerge
import Heniek.ConfigurationOverrides
import Heniek.ConfigurationProvenance
import Heniek.ConfigurationRestriction
import Heniek.ConfigurationStrictness
import Heniek.ConfigurationWinners
import Heniek.ContinuationCapsule
import Heniek.CounterSteps
import Heniek.CycleSearch
import Heniek.DagExactness
import Heniek.DagValidation
import Heniek.DecimalText
import Heniek.DecisionLedger
import Heniek.DeclaredTransitions
import Heniek.DepthFirst
import Heniek.DispatchOnce
import Heniek.EffectfulRun
import Heniek.EpicRuntime
import Heniek.EpicSteps
import Heniek.EpicStore
import Heniek.EvaluatorDecisions
import Heniek.EventPayloads
import Heniek.ExpressionEvaluation
import Heniek.FailurePropagation
import Heniek.FallibleRun
import Heniek.FreshDecisions
import Heniek.FrontToBack
import Heniek.GraphRedaction
import Heniek.GraphRevision
import Heniek.GraphValidation
import Heniek.IncomingVerification
import Heniek.IntegrationOrder
import Heniek.IntegrationService
import Heniek.IntegrationSteps
import Heniek.IntegrationStore
import Heniek.Interactions
import Heniek.JsonGrammar
import Heniek.JsonPatch
import Heniek.JsonSyntax
import Heniek.JsonTexts
import Heniek.JsonWriter
import Heniek.KeyedTable
import Heniek.LastingRows
import Heniek.LeaseFencing
import Heniek.Lexemes
import Heniek.LiveDispatch
import Heniek.ManualRerun
import Heniek.MaterializedWrites
import Heniek.MergeOrder
import Heniek.NarrativeTruncation
import Heniek.NativeBridge
import Heniek.NativeBridgeCourses
import Heniek.NativeBridgeOperations
import Heniek.NativeBridgeRuns
import Heniek.NativeBridgeService
import Heniek.NativeBridgeServiceSteps
import Heniek.NativeBridgeSteps
import Heniek.NativeCancellation
import Heniek.NativeFencing
import Heniek.NativeQuestions
import Heniek.NativeStageRoots
import Heniek.NativeSweep
import Heniek.NodeEvaluation
import Heniek.OptionalFailures
import Heniek.OrderFreeRevisions
import Heniek.OutputMerge
import Heniek.ParserCompleteness
import Heniek.ParserExactness
import Heniek.ParserSoundness
import Heniek.PathOverlay
import Heniek.PathReads
import Heniek.PipelineDocument
import Heniek.PipelineRunner
import Heniek.PipelineStore
import Heniek.PipelineVocabulary
import Heniek.ProjectionReducer
import Heniek.ProjectionTables
import Heniek.Propagation
import Heniek.QueuedCancellation
import Heniek.QuiescingReplans
import Heniek.ReadAvailability
import Heniek.RecoveryDecisions
import Heniek.RecoveryPersistence
import Heniek.RecoveryPolicy
import Heniek.ReducerSteps
import Heniek.RepairBudget
import Heniek.RepeatedNames
import Heniek.ReplannedDependants
import Heniek.RequestAuth
import Heniek.RequestCoverage
import Heniek.RetryTraces
import Heniek.RevisionFidelity
import Heniek.RevisionHistory
import Heniek.RootCauses
import Heniek.RpcCodec
import Heniek.RunLifecycle
import Heniek.RunStages
import Heniek.RunnerLedger
import Heniek.RunnerSettlement
import Heniek.ScheduleOutcomes
import Heniek.ScheduleProgress
import Heniek.SchedulerIds
import Heniek.SchedulerRelease
import Heniek.SchedulerRun
import Heniek.SchedulerSteps
import Heniek.SchedulerTick
import Heniek.SchedulingRuns
import Heniek.SchedulingSteps
import Heniek.ScriptText
import Heniek.SettledAttempts
import Heniek.SettledTasks
import Heniek.SignedRequests
import Heniek.SortedTable
import Heniek.StableOrder
import Heniek.StageApproval
import Heniek.StageChanges
import Heniek.StageTransitions
import Heniek.StaleObservations
import Heniek.StateReferences
import Heniek.StatusInterleavings
import Heniek.StoredStages
import Heniek.StoredUpdates
import Heniek.StrandedSchedules
import Heniek.StrictestLimits
import Heniek.StructuralWaves
import Heniek.TaskGraph
import Heniek.TaskIngestion
import Heniek.TaskLifecycles
import Heniek.TaskSourceStore
import Heniek.TerminalCoherence
import Heniek.TickTotality
import Heniek.TokenBoundaries
import Heniek.TokenScans
import Heniek.TopologicalOrder
import Heniek.TrackerHierarchy
import Heniek.VerifiedPublication
import Heniek.WaveExclusivity
import Heniek.WavePlan
import Heniek.WaveScheduler
import Heniek.WaveSteps
import Heniek.WaveStore
import Heniek.WorkspaceLeases
