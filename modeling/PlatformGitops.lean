import PlatformGitops.AlertBridge.Paging
import PlatformGitops.Coordination.Append
import PlatformGitops.Coordination.AppendCas
import PlatformGitops.Coordination.AppendOnly
import PlatformGitops.Coordination.ApplyLedgerMirrors
import PlatformGitops.Coordination.AuditDebtProgress
import PlatformGitops.Coordination.BranchLinearity
import PlatformGitops.Coordination.ClaimChanges
import PlatformGitops.Coordination.ClaimRecords
import PlatformGitops.Coordination.ClaimSoundness
import PlatformGitops.Coordination.CleanScan
import PlatformGitops.Coordination.Copies
import PlatformGitops.Coordination.InertCopies
import PlatformGitops.Coordination.LapsedClaims
import PlatformGitops.Coordination.ReplayAnswers
import PlatformGitops.Coordination.TakeoverPlan
import PlatformGitops.Coordination.TakeoverRecoveryFlow
import PlatformGitops.Coordination.ValidatePrMirrors
import PlatformGitops.Coordination.WovenLines
import PlatformGitops.CrossAi.Bootstrap
import PlatformGitops.CrossAi.Canonical
import PlatformGitops.CrossAi.CanonicalEncoding
import PlatformGitops.CrossAi.Consensus
import PlatformGitops.CrossAi.Contract
import PlatformGitops.CrossAi.ContractSoundness
import PlatformGitops.CrossAi.CrashRecovery
import PlatformGitops.CrossAi.DecisionSafety
import PlatformGitops.CrossAi.DeliveryCollection
import PlatformGitops.CrossAi.DeliveryPoller
import PlatformGitops.CrossAi.DispatchSafety
import PlatformGitops.CrossAi.DispatchWindow
import PlatformGitops.CrossAi.Dispatcher
import PlatformGitops.CrossAi.Effects
import PlatformGitops.CrossAi.EnforcementOrder
import PlatformGitops.CrossAi.EnvelopeSpelling
import PlatformGitops.CrossAi.Errors
import PlatformGitops.CrossAi.Evaluator
import PlatformGitops.CrossAi.Evidence
import PlatformGitops.CrossAi.EvidenceJson
import PlatformGitops.CrossAi.EvidenceOrder
import PlatformGitops.CrossAi.ExpressionAuthority
import PlatformGitops.CrossAi.HighWater
import PlatformGitops.CrossAi.IntentStore.Calls
import PlatformGitops.CrossAi.IntentStore.DispatchChanges
import PlatformGitops.CrossAi.IntentStore.DispatchStatus
import PlatformGitops.CrossAi.IntentStore.Dispatches
import PlatformGitops.CrossAi.IntentStore.Replay
import PlatformGitops.CrossAi.IntentStore.Rows
import PlatformGitops.CrossAi.IntentStore.StageChanges
import PlatformGitops.CrossAi.IntentStore.StageInvariants
import PlatformGitops.CrossAi.IntentStore.Stages
import PlatformGitops.CrossAi.IntentStore.Writers
import PlatformGitops.CrossAi.Ledger
import PlatformGitops.CrossAi.Outcome
import PlatformGitops.CrossAi.OutcomeSweep
import PlatformGitops.CrossAi.PostedStatus
import PlatformGitops.CrossAi.Preimages
import PlatformGitops.CrossAi.QueryWindow
import PlatformGitops.CrossAi.Reconciler
import PlatformGitops.CrossAi.Server
import PlatformGitops.CrossAi.Timestamps
import PlatformGitops.CrossAi.WriterExclusion
import PlatformGitops.DataAccess.ActiveGrants
import PlatformGitops.DataAccess.Revocation
import PlatformGitops.Deploy.PodPeak
import PlatformGitops.Deploy.QuotaSafety
import PlatformGitops.DriftDetection.JwtConfig
import PlatformGitops.DriftDetection.OrderFree
import PlatformGitops.DriftDetection.QuotaHeadroom
import PlatformGitops.DriftDetection.RuntimeExit
import PlatformGitops.EnumDrift.CanonicalFirst
import PlatformGitops.EnumDrift.Comments
import PlatformGitops.EnumDrift.NonLiteral
import PlatformGitops.EnumDrift.SameMapping
import PlatformGitops.EtlRows.NeverFatal
import PlatformGitops.EtlRows.ReconcileFull
import PlatformGitops.EtlRows.SourcePk
import PlatformGitops.EtlRows.Upsert
import PlatformGitops.EtlWorker.Audit
import PlatformGitops.EtlWorker.BatchFold
import PlatformGitops.EtlWorker.Batches
import PlatformGitops.EtlWorker.DryRun
import PlatformGitops.EtlWorker.RowLoss
import PlatformGitops.FrontendOverlay.ApplyPin
import PlatformGitops.FrontendOverlay.PinLines
import PlatformGitops.FrontendOverlay.RoundTrip
import PlatformGitops.Governance.BoundaryDeclaration
import PlatformGitops.Library.Fallible
import PlatformGitops.Library.Json
import PlatformGitops.Library.JsonEncoding
import PlatformGitops.Library.JsonGaps
import PlatformGitops.Library.Logs
import PlatformGitops.Library.Places
import PlatformGitops.Library.Program
import PlatformGitops.Library.RegexMatches
import PlatformGitops.Library.Table
import PlatformGitops.LiveAnalysis.HostMutation
import PlatformGitops.OverlayDigests.DispatchMap
import PlatformGitops.OverlayDigests.ReadBack
import PlatformGitops.PrAudit.AddressBoundaries
import PlatformGitops.PrAudit.Body
import PlatformGitops.PrAudit.ConsultationFloor
import PlatformGitops.PrAudit.ModeShadowing
import PlatformGitops.PrAudit.QuotedPaths
import PlatformGitops.PreEnable.CollectRedis
import PlatformGitops.PreEnable.RedisLua
import PlatformGitops.PreEnable.RedisTally
import PlatformGitops.Promotion.CriticalFixSla
import PlatformGitops.Promotion.LedgerOrder
import PlatformGitops.Rollout.Queue
import PlatformGitops.Rollout.QuietMain
