import DbtCraft.Core.EngineBudget
import DbtCraft.Services.CancelAttribution
import DbtCraft.Services.RunHistory
import DbtCraft.Routers.CancelScope
import DbtCraft.Services.PoolConservation
import DbtCraft.Services.RunUndisturbed
import DbtCraft.Services.ScheduleSummary
import DbtCraft.Ingest.LakeJob
import DbtCraft.Ingest.CatalogSettings
import DbtCraft.Core.DialledHosts
import DbtCraft.Ingest.IcebergPublish
import DbtCraft.Services.StorageRoundTrip
import DbtCraft.Routers.LogFanout
import DbtCraft.Server.ProxyConfinement
import DbtCraft.Services.CloneAtomicity
import DbtCraft.Server.AgentHeaders
import DbtCraft.Agent.SpawnEnvironment
import DbtCraft.Core.TokenAuth
import DbtCraft.Server.DownloadLinks
import DbtCraft.Server.CredentialBinding
import DbtCraft.Agent.PendingCalls
import DbtCraft.Agent.RegistryGuarantee
import DbtCraft.Web.ReopenedConversation
import DbtCraft.Web.RunOptionsAgreement
import DbtCraft.Routers.RunLog
import DbtCraft.Routers.IngestLog
import DbtCraft.Routers.IngestHistory
import DbtCraft.Routers.IngestOverlap
import DbtCraft.Services.MaintenanceExclusion
import DbtCraft.Server.TokenRotation
import DbtCraft.Web.RunDelivery
import DbtCraft.Ingest.DataSelector
import DbtCraft.Services.GitOutput
import DbtCraft.Services.Redaction
import DbtCraft.Services.MacroSignature
import DbtCraft.Ingest.RestPath
import DbtCraft.Services.ShowOutput
import DbtCraft.Services.GitConfigScope
import DbtCraft.Services.DirectoryCopy
import DbtCraft.Services.InlineSql
import DbtCraft.Lineage
import DbtCraft.Ingest.LakeLeftovers
import DbtCraft.Services.Reconciliation
import DbtCraft.Services.WatcherCoverage
import DbtCraft.Services.StateFiles
import DbtCraft.Routers.RetryRun
import DbtCraft.Services.ResultsAttribution
import DbtCraft.Ingest.SqlSource
import DbtCraft.Routers.IngestResult
import DbtCraft.Services.WarmWorker
import DbtCraft.Web.IngestStream
import DbtCraft.Server.Crypto
import DbtCraft.Server.HostGuard
import DbtCraft.Web.CommandArgs
import DbtCraft.Agent.SessionList
import DbtCraft.Web.QueryChart
import DbtCraft.Services.BoardQuoting
import DbtCraft.Web.StripSelection
import DbtCraft.Server.FormValidation
import DbtCraft.Web.EventLoops
import DbtCraft.Web.TypedValues
