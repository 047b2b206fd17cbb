import Kepryx.Runs
import Kepryx.UnitOfWork
import Kepryx.ReportHandling
import Kepryx.SourcePriority
import Kepryx.SourceProvenance
import Kepryx.IdentityLookups
import Kepryx.DeviceIdentity
import Kepryx.RiskEngine
import Kepryx.CveFeeds
import Kepryx.RiskWriters
import Kepryx.RiskPaths
import Kepryx.FeedOutage
import Kepryx.LastSeen
import Kepryx.SelfSecurity
import Kepryx.DependencyScan
import Kepryx.StaleWrites
import Kepryx.UpdateProposals
import Kepryx.ProposalRejection
import Kepryx.ExpiringStore
import Kepryx.TokenBlocklist
import Kepryx.Accounts
import Kepryx.Sessions
import Kepryx.SessionRevocation
import Kepryx.Revocations
import Kepryx.RefreshReplay
import Kepryx.PatchApproval
import Kepryx.ReportOrder
import Kepryx.GroupedFold
import Kepryx.CompliancePercentages
import Kepryx.Transactions
import Kepryx.IntegrationSync
import Kepryx.IpNetworks
import Kepryx.ManagementNetwork
import Kepryx.Redaction
import Kepryx.Erasure
import Kepryx.Administrators
import Kepryx.EventStream
import Kepryx.ScanBoundary
import Kepryx.Results
import Kepryx.ComplianceCatalog
import Kepryx.ComplianceAudit
import Kepryx.AuditLoop
import Kepryx.AuditRecord
import Kepryx.AuditAlerts
import Kepryx.SnapshotCommits
import Kepryx.ConcurrentAudits
import Kepryx.GapAlerts
import Kepryx.SuppressionWindow
import Kepryx.AlertDeduplication
import Kepryx.ConcurrentAlerts
import Kepryx.Notifications
import Kepryx.AssetIntake
import Kepryx.ShadowFlag
import Kepryx.ScanExclusions
import Kepryx.UpdateWorkflow
import Kepryx.LiveProposals
import Kepryx.RiskMonotonicity
import Kepryx.JsonText
import Kepryx.WebhookDispatch
import Kepryx.WebhookSignature
import Kepryx.WebhookDelivery
import Kepryx.ScanReports
import Kepryx.AuditRetention
import Kepryx.LoginLockout
import Kepryx.MfaEnrollment
import Kepryx.Connectors
import Kepryx.InventoryCompleteness
import Kepryx.StreamAuthorization
import Kepryx.RansomwareSignal
import Kepryx.ReportRows
import Kepryx.RepeatedReports
import Kepryx.ServiceDrift
import Kepryx.InvalidAddresses
import Kepryx.ComplianceEvidence
import Kepryx.EvidenceLineage
import Kepryx.OsvAdvisories
import Kepryx.ScannedFixes
import Kepryx.UpdateTargets
import Kepryx.AffectedRanges
import Kepryx.RequirementPatches
import Kepryx.AiValidation
import Kepryx.EnrichmentMerge
import Kepryx.NvdPages
import Kepryx.BoundedRounds
import Kepryx.PendingEnrichment
import Kepryx.KevSync
import Kepryx.CsvReader
import Kepryx.CsvImport
import Kepryx.ImportedNames
import Kepryx.DryRun
import Kepryx.IpLiterals
import Kepryx.AddressTexts
import Kepryx.ConnectorUrls
import Kepryx.ConnectorSecrets
import Kepryx.HostSpellings
import Kepryx.AssetApi
import Kepryx.BoundedGraph
import Kepryx.InventoryGraph
import Kepryx.GraphEvidence
import Kepryx.ExpiringCounters
import Kepryx.RateBuckets
import Kepryx.RateLimit
import Kepryx.WebhookPinning
import Kepryx.Cef
import Kepryx.CefEvents
import Kepryx.Regex
import Kepryx.Substitution
import Kepryx.SecretPatterns
import Kepryx.PiiFields
import Kepryx.LogFilter
import Kepryx.ClientAddress
import Kepryx.UserLimits
import Kepryx.AutoDisable
import Kepryx.NmapXml
import Kepryx.ScanPass
import Kepryx.VulnerabilityCounts
import Kepryx.ParsedAssets
import Kepryx.TitleLengths
import Kepryx.Occurrences
import Kepryx.LongestMatches
import Kepryx.AssistantAnswers
import Kepryx.CountPhrases
import Kepryx.RecentDigits
import Kepryx.CountRepairs
import Kepryx.AnswerLength
import Kepryx.Issuance
import Kepryx.ApiTokens
import Kepryx.ApiTokenGrants
import Kepryx.ApiTokenUsage
import Kepryx.CsvWriter
import Kepryx.AlertLifecycle
import Kepryx.CsvExports
import Kepryx.Paging
import Kepryx.AlertPages
import Kepryx.WebhookSecrets
import Kepryx.WebhookRotation
import Kepryx.JsonReader
import Kepryx.CanonicalJson
import Kepryx.WebhookVerification
import Kepryx.EvidenceIntegrity
import Kepryx.Configuration
import Kepryx.InventoryReimport
import Kepryx.RunSummaries
import Kepryx.InactiveUsers
import Kepryx.ResultLineage
