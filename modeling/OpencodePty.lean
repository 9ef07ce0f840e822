import OpencodePty.JsValues
import OpencodePty.Lifecycle
import OpencodePty.LifecycleRuns
import OpencodePty.RefreshedEvidence
import OpencodePty.Redaction
import OpencodePty.KeyedMaps
import OpencodePty.SessionRegistry
import OpencodePty.RegistryCalls
import OpencodePty.SessionReservations
import OpencodePty.RegistryLimits
import OpencodePty.ApprovalSteps
import OpencodePty.ApprovalRuns
import OpencodePty.StartLock
import OpencodePty.StartLockSafety
import OpencodePty.TextEncodings
import OpencodePty.OutputJournal
import OpencodePty.WorkerJournal
import OpencodePty.WorkerJournalRuns
import OpencodePty.RecordChecks
import OpencodePty.SessionCodec
import OpencodePty.SessionRoundTrip
import OpencodePty.WholeRecords
import OpencodePty.SessionLoading
import OpencodePty.RecordAcceptance
import OpencodePty.StateAcceptance
import OpencodePty.RecordRewrites
import OpencodePty.JournalReconciliation
import OpencodePty.SessionRecovery
import OpencodePty.LegacyMigration
import OpencodePty.SessionIsolation
import OpencodePty.TerminalRedaction
import OpencodePty.IdempotentSpawns
import OpencodePty.TaskChains
import OpencodePty.NativeSnapshots
import OpencodePty.PersistQueue
import OpencodePty.SessionLanes
import OpencodePty.SessionDeletion
import OpencodePty.PromiseLanes
import OpencodePty.RouterLanes
import OpencodePty.SnapshotOrder
import OpencodePty.WaitSettlement
import OpencodePty.TerminalPruning
import OpencodePty.ChildSignals
import OpencodePty.ExitMatches
import OpencodePty.OverlappingWrites
import OpencodePty.StartProtocol
import OpencodePty.StartSafety
import OpencodePty.ProcessScans
import OpencodePty.ContainmentHistories
import OpencodePty.WorkerReports
import OpencodePty.PersistableSnapshots
import OpencodePty.WorkerVerdicts
import OpencodePty.ExitedSnapshots
import OpencodePty.VerdictStability
import OpencodePty.TerminalAgreement
import OpencodePty.ClaimExclusivity
import OpencodePty.AtomicFiles
import OpencodePty.ApprovalFailures
import OpencodePty.EvidencedDeletion
import OpencodePty.WorkerReceipts
import OpencodePty.RollbackReceipts
import OpencodePty.FailedStarts
import OpencodePty.JournalRemovals
import OpencodePty.MigrationWrites
import OpencodePty.MigrationRuns
import OpencodePty.MigrationSoundness
import OpencodePty.StorageAppends
import OpencodePty.AppendRetries
import OpencodePty.Utf8Sequences
import OpencodePty.CharacterFronts
import OpencodePty.StreamDecoding
import OpencodePty.OutputRetention
import OpencodePty.TextBudgets
import OpencodePty.ExecOutput
import OpencodePty.FailedWrites
import OpencodePty.JournalReader
import OpencodePty.LinePaging
import OpencodePty.JournalLags
import OpencodePty.ReadPositions
import OpencodePty.WaitScopes
import OpencodePty.InputFlushes
import OpencodePty.WholeRedaction
import OpencodePty.AbortablePrograms
import OpencodePty.BashTool
import OpencodePty.BashApprovals
import OpencodePty.ResumedReads
import OpencodePty.WindowsCommandLines
import OpencodePty.WindowsEnvironment
import OpencodePty.BatchCommandLines
import OpencodePty.CivilDates
import OpencodePty.CivilOrder
import OpencodePty.TimestampInstants
import OpencodePty.RegularExpressions
import OpencodePty.RegExpPatterns
import OpencodePty.Wildcards
import OpencodePty.SensitiveKeys
import OpencodePty.OrderedMaps
import OpencodePty.RuntimeEnvironment
import OpencodePty.WindowsBlocks
import OpencodePty.WorkerEnvironments
import OpencodePty.PermissionRules
import OpencodePty.SpawnAuthorizer
import OpencodePty.DaemonRedaction
import OpencodePty.RedactorTwins
import OpencodePty.HoldBackBounds
import OpencodePty.EntityEscapes
import OpencodePty.TagScanning
import OpencodePty.XmlEscapes
import OpencodePty.ReadTool
import OpencodePty.FixedWindows
import OpencodePty.HandoffTokens
import OpencodePty.DaemonServing
import OpencodePty.DaemonSafety
import OpencodePty.OwnershipSecrets
import OpencodePty.PayloadChecks
import OpencodePty.RpcDispatch
import OpencodePty.RpcMediation
import OpencodePty.RpcRuns
import OpencodePty.ClientRequests
import OpencodePty.RequestMeanings
import OpencodePty.RequestRoundTrips
import OpencodePty.OwnerKeys
import OpencodePty.DaemonLaunches
import OpencodePty.LaunchSafety
import OpencodePty.ByteStreams
import OpencodePty.WorkerPipes
import OpencodePty.ReadyLines
import OpencodePty.Words
import OpencodePty.ProcessIdentities
import OpencodePty.WorkerRequests
import OpencodePty.EscapeSequences
import OpencodePty.LedgerAcceptance
import OpencodePty.WorkPools
import OpencodePty.Reconciliations
import OpencodePty.OwnerApprovals
