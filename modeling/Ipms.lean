import Ipms.Lib.Throwing
import Ipms.Lib.Fallible
import Ipms.Lib.Table
import Ipms.Lib.Transaction
import Ipms.Lib.Run
import Ipms.Lib.Insertion
import Ipms.Lib.Datetime
import Ipms.Lib.Decimal
import Ipms.Lib.Transducer
import Ipms.Lib.Saturation
import Ipms.Server.Tenants.Administrators
import Ipms.Server.Tenants.Identity
import Ipms.Server.Tenants.NamePermanence
import Ipms.Server.HyperV.Records
import Ipms.Server.HyperV.Management
import Ipms.Server.HyperV.Snapshots
import Ipms.Server.HyperV.Settings
import Ipms.Agent.HyperV.Settings
import Ipms.Server.HyperV.SettingsAgreement
import Ipms.Server.HyperV.Replays
import Ipms.Server.Replays
import Ipms.Server.HyperV.Console
import Ipms.Server.HyperV.System
import Ipms.Server.HyperV.JobSteps
import Ipms.Server.HyperV.ManagementRuns
import Ipms.Server.HyperV.SessionSteps
import Ipms.Server.HyperV.SessionRuns
import Ipms.Server.HyperV.InputSteps
import Ipms.Server.HyperV.InputOrder
import Ipms.Console.Dispatcher
import Ipms.Console.AtMostOnce
import Ipms.Jobs.Server
import Ipms.Jobs.System
import Ipms.Jobs.Life
import Ipms.Jobs.Steps
import Ipms.Jobs.AtMostOnce
import Ipms.Jobs.Reports
import Ipms.Jobs.Delivery
import Ipms.Server.Collections.Rollouts
import Ipms.Server.Collections.Steps
import Ipms.Server.Collections.Finality
import Ipms.Server.Collections.Order
import Ipms.Server.GroupPolicy.Report
import Ipms.Server.GroupPolicy.Watermark
import Ipms.Server.GroupPolicy.Receipts
import Ipms.ManagementJson.Value
import Ipms.ManagementJson.Serialize
import Ipms.ManagementJson.Parse
import Ipms.ManagementJson.ParseText
import Ipms.ManagementJson.Size
import Ipms.ManagementJson.Unambiguous
import Ipms.ManagementJson.KeyOrder
import Ipms.ManagementJson.Grammar
import Ipms.ManagementJson.Tokens
import Ipms.ManagementJson.Recognition
import Ipms.Agent.Gpo.Text
import Ipms.Agent.Gpo.Snapshot
import Ipms.Crypto.Sha256
import Ipms.Agent.Gpo.Job
import Ipms.Agent.Gpo.Validate
import Ipms.Agent.Gpo.OverrideText
import Ipms.Agent.Gpo.Receipt
import Ipms.Agent.Gpo.Journal
import Ipms.Agent.Gpo.Host
import Ipms.Agent.Gpo.Managed
import Ipms.Agent.Gpo.Outcome
import Ipms.Agent.Gpo.Answers
import Ipms.Agent.Gpo.Closure
import Ipms.Agent.Gpo.Saved
import Ipms.Agent.Gpo.Reload
import Ipms.Agent.Gpo.Recorded
import Ipms.Agent.Security.Scan
import Ipms.Agent.Updater.Update
import Ipms.Agent.Updater.Course
import Ipms.Agent.Updater.Recovery
import Ipms.Agent.HyperV.Commands
import Ipms.Portal.InputQueue
import Ipms.Portal.InputQueueRuns
import Ipms.Server.HyperV.CheckpointTree
import Ipms.Agent.Hgs.Contract
import Ipms.Agent.Hgs.Journal
import Ipms.Agent.Hgs.Host
import Ipms.Agent.Hgs.Execute
import Ipms.Agent.Hgs.Uncertainty
import Ipms.Agent.Hgs.Restart
import Ipms.Agent.Hgs.Outcomes
import Ipms.Agent.Hgs.Store
import Ipms.Agent.Hgs.Cycle
import Ipms.Agent.Hgs.LocalFence
import Ipms.Agent.Hgs.FenceRuns
import Ipms.Server.Text
import Ipms.Server.Document
import Ipms.Server.CanonicalJson
import Ipms.Server.Tenancy
import Ipms.Server.Gpo.Records
import Ipms.Server.Gpo.Directory
import Ipms.Server.Gpo.ValidSnapshot
import Ipms.Server.Gpo.Capacity
import Ipms.Server.Gpo.Placement
import Ipms.Server.Gpo.Activation
import Ipms.Server.Gpo.SnapshotAgreement
import Ipms.Server.Gpo.VersionRecovery
import Ipms.Server.Gpo.Overrides
import Ipms.Server.Gpo.Authority
import Ipms.Server.Gpo.Fence
import Ipms.Server.Gpo.Postcondition
import Ipms.Server.Gpo.Frame
import Ipms.Server.Gpo.Reconciliation
import Ipms.Server.Gpo.Exchange
import Ipms.Server.Gpo.Settings
import Ipms.Server.Gpo.TargetSeparation
import Ipms.Server.Gpo.Associations
import Ipms.Server.Gpo.OverrideAgreement
import Ipms.Server.Gpo.Requests
import Ipms.Server.Gpo.Preflights
import Ipms.Server.Gpo.Changes
import Ipms.Server.Gpo.Editors
import Ipms.Server.Gpo.System
import Ipms.Server.Gpo.Moves
import Ipms.Server.Gpo.FenceMoves
import Ipms.Server.Gpo.ExchangeMoves
import Ipms.Server.Gpo.RequestMoves
import Ipms.Server.Gpo.EventMoves
import Ipms.Server.Gpo.JobRows
import Ipms.Server.Gpo.Release
import Ipms.Server.Gpo.Replays
import Ipms.Agent.Gpo.Reconciliation
import Ipms.Server.Gpo.ReconciliationAgreement
import Ipms.Server.Security.Scans
import Ipms.Server.Security.Evaluator
import Ipms.Server.Security.Exchange
import Ipms.Server.Security.PageChecks
import Ipms.Server.Security.Pages
import Ipms.Server.Security.PageRuns
import Ipms.Server.Security.PageOrder
import Ipms.Server.Security.ScanAgreement
import Ipms.Server.AgentPki.Certificates
import Ipms.Server.AgentPki.Issuers
import Ipms.Server.AgentPki.IssuerRuns
import Ipms.Server.Inventory.Software
import Ipms.Server.Inventory.PageRuns
import Ipms.Server.Updates.Ingest
import Ipms.Server.Updates.Retention
import Ipms.Server.Hgs.Contract
import Ipms.Server.Labels
import Ipms.Server.DistinguishedNames
import Ipms.Server.Hgs.ObservationAgreement
import Ipms.Server.Hgs.PlanDocument
import Ipms.Server.Hgs.Records
import Ipms.Server.Hgs.Plans
import Ipms.Server.Hgs.Services
import Ipms.Server.Hgs.Script
import Ipms.Server.Hgs.Rows
import Ipms.Server.Hgs.Progress
import Ipms.Server.Hgs.Soundness
import Ipms.Server.Hgs.Results
import Ipms.Server.Hgs.Steps
import Ipms.Server.Hgs.Effects
import Ipms.Server.Hgs.Runs
import Ipms.Server.Hgs.Revocation
import Ipms.Server.Hgs.Exclusivity
import Ipms.Server.NativeProtocol.Framer
import Ipms.Server.NativeProtocol.Framing
import Ipms.Server.NativeProtocol.Instructions
import Ipms.Server.NativeProtocol.Codec
import Ipms.Server.NativeProtocol.Forwarding
import Ipms.Lib.LittleEndian
import Ipms.Lib.Lookup
import Ipms.Agent.Console.Guard
import Ipms.Agent.Console.GuardStream
import Ipms.Agent.Console.GuardPacket
import Ipms.Agent.Console.GuardRuns
import Ipms.Server.NativeProtocol.Preconnection
import Ipms.Agent.Console.Lease
import Ipms.Agent.Console.LeaseText
import Ipms.Agent.Console.LeaseRuns
import Ipms.Agent.Console.Relay
import Ipms.Agent.Console.RelayRuns
import Ipms.Server.JsonLoads
import Ipms.Agent.JsonText
import Ipms.Agent.Inventory.Volumes
import Ipms.Server.Inventory.VolumeAgreement
import Ipms.Agent.Console.IdentityWorker
import Ipms.Agent.Console.IdentityFreshness
import Ipms.Lib.Keyed
import Ipms.Importer.Controls
import Ipms.Importer.Precedence
import Ipms.Importer.Artifacts
import Ipms.Agent.Gpo.Artifact
import Ipms.Server.Gpo.Review
import Ipms.Server.Discovery.Confinement
import Ipms.Agent.HyperV.ManagementJournal
import Ipms.Agent.Security.Registry
import Ipms.Lib.Merge
import Ipms.Agent.Gpo.Links
import Ipms.Server.Gpo.ApplicationStatus
import Ipms.Server.Gpo.WriteFence
