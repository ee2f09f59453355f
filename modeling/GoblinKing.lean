import GoblinKing.Library.Lease
import GoblinKing.Library.Except
import GoblinKing.Library.Admission
import GoblinKing.Library.Index
import GoblinKing.Library.Workflow
import GoblinKing.Store.Schedules
import GoblinKing.Store.Finalization
import GoblinKing.Store.Tables
import GoblinKing.Scheduler.Failures
import GoblinKing.Scheduler.Pass
import GoblinKing.Scheduler.Steps
import GoblinKing.Api.Schedules
import GoblinKing.Scheduler.System
import GoblinKing.Scheduler.Rows
import GoblinKing.Scheduler.Terminal
import GoblinKing.Scheduler.Holding
import GoblinKing.Scheduler.Leases
import GoblinKing.Scheduler.Fencing
import GoblinKing.Scheduler.RunRows
import GoblinKing.Scheduler.Knowledge
import GoblinKing.Scheduler.Numbering
import GoblinKing.Scheduler.Recovery
import GoblinKing.Library.Retry
import GoblinKing.Scheduler.Stakes
import GoblinKing.Scheduler.RetryBudget
import GoblinKing.Scheduler.Timeouts
import GoblinKing.Scheduler.Passes
import GoblinKing.Scheduler.Concurrency
import GoblinKing.Scheduler.ScheduleRows
import GoblinKing.Scheduler.Occurrences
import GoblinKing.Library.Renewal
import GoblinKing.Scheduler.LeaseThreads
import GoblinKing.Scheduler.LeaseKeeping
import GoblinKing.Api.StoredSchedules
import GoblinKing.Repository.Contracts
import GoblinKing.Repository.Store
import GoblinKing.Repository.Calls
import GoblinKing.Repository.Review
import GoblinKing.Repository.Pointers
import GoblinKing.Api.Repository
import GoblinKing.Api.RepositorySources
import GoblinKing.Library.OrderedLog
import GoblinKing.Store.Events
import GoblinKing.Scheduler.Attempts
import GoblinKing.Scheduler.Causality
import GoblinKing.Library.EntryStream
import GoblinKing.Store.Delivery
import GoblinKing.Store.DeliveryOrder
import GoblinKing.Store.DeliveryLoss
import GoblinKing.Store.DeliveryRecovery
import GoblinKing.Library.References
import GoblinKing.Store.Cleanup
import GoblinKing.Api.Queueing
import GoblinKing.Api.Ceilings
import GoblinKing.Library.Latest
import GoblinKing.Store.Validations
import GoblinKing.Scheduler.Gate
import GoblinKing.Api.ServiceRuntimes
import GoblinKing.Api.ServiceCustody
import GoblinKing.Api.ServiceLeaks
import GoblinKing.Library.Absorbing
import GoblinKing.Library.Scan
import GoblinKing.Api.LongServices
import GoblinKing.Api.Deletion
import GoblinKing.Library.Listing
import GoblinKing.Store.Listing
import GoblinKing.Api.Reads
import GoblinKing.Api.Ownership
import GoblinKing.Api.Isolation
import GoblinKing.Api.IsolationLeaks
import GoblinKing.Api.Visibility
import GoblinKing.Api.LiveEvents
import GoblinKing.Library.Paths
import GoblinKing.Api.Artifacts
import GoblinKing.Api.ArtifactFiles
import GoblinKing.Api.FanoutCreation
import GoblinKing.Api.FanoutProgress
import GoblinKing.Library.Schema
import GoblinKing.Store.Migrations
import GoblinKing.Store.Upgrades
import GoblinKing.Store.EventUpgrades
import GoblinKing.Store.EventPages
import GoblinKing.Api.WebSocketDrain
import GoblinKing.Api.DrainPhases
import GoblinKing.Api.DrainSafety
import GoblinKing.Store.Claims
import GoblinKing.Library.Tickets
import GoblinKing.Library.Transaction
import GoblinKing.Api.RateLimits
import GoblinKing.Library.Labels
import GoblinKing.Kubernetes.Names
import GoblinKing.Kubernetes.JobRuns
import GoblinKing.Api.ServiceNames
import GoblinKing.Api.RepositoryKinds
import GoblinKing.Library.Definitions
import GoblinKing.Library.Documents
import GoblinKing.Runtime.WorkerEnvironment
import GoblinKing.Runtime.DockerCommand
import GoblinKing.Kubernetes.Manifest
import GoblinKing.Runtime.Precedence
import GoblinKing.Kubernetes.Restricted
import GoblinKing.Library.Codec
import GoblinKing.Store.Columns
import GoblinKing.Store.RoundTrip
import GoblinKing.Library.Emission
import GoblinKing.Runtime.DockerWorker
import GoblinKing.Runtime.Lifecycle
import GoblinKing.Runtime.MemoryQuantities
import GoblinKing.Library.Outcomes
import GoblinKing.Kubernetes.ArtifactCopies
import GoblinKing.Kubernetes.Retention
import GoblinKing.Kubernetes.RetentionErrors
import GoblinKing.Kubernetes.RetainedCopies
import GoblinKing.Kubernetes.RetentionOutcomes
import GoblinKing.PolicyDocuments
import GoblinKing.PolicyLayers
import GoblinKing.Library.Utf8
import GoblinKing.Runtime.ContainerLogs
import GoblinKing.Library.Json
import GoblinKing.Directory.Cookies
import GoblinKing.Api.ServiceProxies
import GoblinKing.Directory.Proxy
import GoblinKing.Kubernetes.RetainedUris
import GoblinKing.Api.WebSocketRelay
import GoblinKing.Identifiers
import GoblinKing.Api.ArtifactCleanup
import GoblinKing.UtcClock
import GoblinKing.Library.JsonTexts
import GoblinKing.Kubernetes.ValidationIdentities
import GoblinKing.Kubernetes.ResultForwarder
import GoblinKing.Kubernetes.ForwardedResults
import GoblinKing.Kubernetes.ForwarderAgreement
import GoblinKing.Api.RelayOutcomes
import GoblinKing.Runtime.ArtifactPolicy
import GoblinKing.Runtime.RunEvents
import GoblinKing.Library.JsonDepth
import GoblinKing.Library.JsonValues
import GoblinKing.Runtime.RunEventPublisher
import GoblinKing.Directory.Bundles
import GoblinKing.Library.Resolution
import GoblinKing.Kubernetes.RetentionAccesses
import GoblinKing.Kubernetes.RetentionRoots
import GoblinKing.Kubernetes.PodDiagnostics
import GoblinKing.Kubernetes.ObservedRuns
import GoblinKing.Kubernetes.ObservedLifecycle
import GoblinKing.Library.Expiry
import GoblinKing.Library.Since
import GoblinKing.Directory.Sessions
import GoblinKing.Directory.Logins
import GoblinKing.Directory.SessionRuns
import GoblinKing.Api.Authentication
import GoblinKing.Api.TokenRuns
