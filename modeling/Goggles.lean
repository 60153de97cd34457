import Goggles.Python.Text
import Goggles.Python.Json
import Goggles.Library.ClosedSchema
import Goggles.Schema.AuditSchema
import Goggles.Ingest.Columns
import Goggles.Ingest.Normalize
import Goggles.Ingest.Validate
import Goggles.Library.Keyed
import Goggles.Library.Replay
import Goggles.Library.Reorder
import Goggles.Store.Tables
import Goggles.Projection.Delivery
import Goggles.Projection.Network
import Goggles.Projection.Convergence
import Goggles.Projection.Project
import Goggles.Projection.Provenance
import Goggles.Projection.Incremental
import Goggles.Projection.DeliveryOrder
import Goggles.Projection.ConvergenceOrder
import Goggles.Projection.Stitched
import Goggles.Projection.WellStitched
import Goggles.Analysis.Divergence
import Goggles.Ingest.Metadata
import Goggles.Ingest.Ingest
import Goggles.Ingest.Accepted
import Goggles.Store.Sound
import Goggles.Library.Runs
import Goggles.Store.CreateEvents
import Goggles.Store.Upload
import Goggles.Python.PlainJson
import Goggles.Ingest.Backfill
import Goggles.Python.WideJson
import Goggles.Ingest.Readings
import Goggles.Ingest.Acceptance
import Goggles.Store.Projected
import Goggles.Store.Groups
import Goggles.Store.GroupIdentity
import Goggles.Store.Deduplication
import Goggles.Retention.Prune
import Goggles.Retention.Evidence
import Goggles.Retention.Rollup
import Goggles.Retention.Recovery
import Goggles.Analysis.MessageIds
import Goggles.Analysis.MessageViews
import Goggles.Analysis.TraceAccounting
import Goggles.Refinement.Delivery
import Goggles.Refinement.Convergence
import Goggles.Refinement.Recipients
import Goggles.Refinement.Stitching
import Goggles.Refinement.ExactlyOnce
import Goggles.Refinement.Attribution
import Goggles.Investigation.Agreement
import Goggles.Investigation.Publication
import Goggles.Investigation.Canonical
import Goggles.Library.ByteStreams
import Goggles.Transfer.ProgressInput
import Goggles.Transfer.VerifiedBytes
import Goggles.Transfer.UploadEndpoint
import Goggles.Tokens.Lifecycle
import Goggles.Tokens.FailedAuthentication
import Goggles.Library.Walks
import Goggles.Views.Pagination
import Goggles.Views.Filters
import Goggles.Views.Actions
import Goggles.Views.Listings
import Goggles.Views.Delivery
import Goggles.Views.Quarantine
import Goggles.Library.Emitting
import Goggles.Library.Grouping
import Goggles.Views.RecipientMatrix
import Goggles.Views.ActionGroups
import Goggles.Python.TracedJson
import Goggles.Python.Nesting
import Goggles.Telemetry.Scrubbing
import Goggles.Export.Streaming
import Goggles.Timeline.Fields
import Goggles.Timeline.Epochs
import Goggles.Timeline.Items
import Goggles.Timeline.Engines
import Goggles.Library.Sessions
import Goggles.Concurrency.Protocol
import Goggles.Concurrency.Commit
import Goggles.Concurrency.Locality
import Goggles.Concurrency.Isolation
import Goggles.Concurrency.Statements
import Goggles.Concurrency.Committing
import Goggles.Concurrency.Safety
import Goggles.Concurrency.Waiting
import Goggles.Concurrency.Alone
import Goggles.Views.Payloads
import Goggles.Views.GroupExport
import Goggles.Retention.Exports
import Goggles.Views.Engines
import Goggles.Views.DeliveryTab
import Goggles.Views.GroupList
import Goggles.Retention.Rebuild
import Goggles.Views.Projections
