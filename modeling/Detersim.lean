import Detersim.CheckerExactness
import Detersim.PendingOperations
import Detersim.SequentialHistories
import Detersim.DispatchOrder
import Detersim.MessageSteps
import Detersim.DeadlockFlag
import Detersim.CrashIsolation
import Detersim.AbortedFlag
import Detersim.TxnExactness
import Detersim.StorageDurability
import Detersim.LogRoundTrip
import Detersim.KeyLocality
import Detersim.PrimaryBackupSafety
import Detersim.MiniRaftSafety
import Detersim.Experiment
import Detersim.RecallVerdict
import Detersim.ShrinkNecessity
import Detersim.ReceiveWakeups
import Detersim.GhostTimers
import Detersim.ReplayFidelity
import Detersim.KvRoundTrip
import Detersim.LineStrictness
import Detersim.StreamDelivery
import Detersim.SeedSearch
import Detersim.RunReportJson
import Detersim.FailingCore
import Detersim.SleepDeadlines
import Detersim.SleepPollers
import Detersim.ExploredSteps
import Detersim.StorageFaults
import Detersim.ShrinkProgress
import Detersim.NemesisPlans
import Detersim.PartitionClasses
import Detersim.CompositeMerge
import Detersim.RetainedCandidates
import Detersim.NetworkDelays
import Detersim.SutStreams
import Detersim.CausalGraph
import Detersim.ArtifactPages
import Detersim.MessageText
import Detersim.TraceText
import Detersim.CoverageSignals
import Detersim.CoverageEvents
import Detersim.KvSettles
