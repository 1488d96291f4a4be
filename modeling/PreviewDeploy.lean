import PreviewDeploy.Backoff
import PreviewDeploy.CommandLine
import PreviewDeploy.CommandLine.Help
import PreviewDeploy.ControlPlane.Answer
import PreviewDeploy.ControlPlane.Fault
import PreviewDeploy.ControlPlane.Message
import PreviewDeploy.ControlPlane.Script
import PreviewDeploy.Crypto.Sha256
import PreviewDeploy.Detached
import PreviewDeploy.Duration
import PreviewDeploy.Event
import PreviewDeploy.Failure
import PreviewDeploy.Feed
import PreviewDeploy.File.Basic
import PreviewDeploy.File.Fingerprint
import PreviewDeploy.File.Project
import PreviewDeploy.FileTree
import PreviewDeploy.FileTree.Listing
import PreviewDeploy.History
import PreviewDeploy.Http.Exchange
import PreviewDeploy.Http.Url
import PreviewDeploy.Identifier
import PreviewDeploy.Identity
import PreviewDeploy.InstanceEnv
import PreviewDeploy.Json.Basic
import PreviewDeploy.Json.Merge
import PreviewDeploy.Json.Number
import PreviewDeploy.Json.Reader
import PreviewDeploy.Json.Record
import PreviewDeploy.Json.Writer
import PreviewDeploy.LogLine
import PreviewDeploy.Main
import PreviewDeploy.Metrics
import PreviewDeploy.Monitor
import PreviewDeploy.Orchestrator.Basic
import PreviewDeploy.Orchestrator.Run
import PreviewDeploy.Orchestrator.Step
import PreviewDeploy.Program
import PreviewDeploy.ReadOnly
import PreviewDeploy.Schema
import PreviewDeploy.Selection
import PreviewDeploy.Session
import PreviewDeploy.Settings.Basic
import PreviewDeploy.Settings.Load
import PreviewDeploy.Settings.Override
import PreviewDeploy.Signature
import PreviewDeploy.Simulation
import PreviewDeploy.Store.Basic
import PreviewDeploy.Store.Cell
import PreviewDeploy.Store.History
import PreviewDeploy.Store.Journal
import PreviewDeploy.Store.Overwrite
import PreviewDeploy.Store.State
import PreviewDeploy.Telemetry
import PreviewDeploy.Text.Base64Url
import PreviewDeploy.Text.Bytes
import PreviewDeploy.Text.Hidden
import PreviewDeploy.Text.Quoted
import PreviewDeploy.Text.Space
import PreviewDeploy.Time.Timestamp
import PreviewDeploy.Token
import PreviewDeploy.Token.Key
import PreviewDeploy.Transaction
import PreviewDeploy.Vars
import PreviewDeploy.Word
import PreviewDeploy.Workspace
import PreviewDeploy.World
import PreviewDeploy.Proofs.Frames
import PreviewDeploy.Proofs.StepFrames
import PreviewDeploy.Proofs.TransactionStep
import PreviewDeploy.Proofs.StepCases
import PreviewDeploy.Proofs.Trace
import PreviewDeploy.Proofs.ActiveLoop
import PreviewDeploy.Proofs.TransactionOrder
import PreviewDeploy.Proofs.InstanceFiles
import PreviewDeploy.Proofs.Callers
import PreviewDeploy.Proofs.Events
import PreviewDeploy.Proofs.Coalescing
import PreviewDeploy.Proofs.Supersession
import PreviewDeploy.Proofs.LoopStages
import PreviewDeploy.Proofs.Monitoring
import PreviewDeploy.Proofs.MonitoredInstance
import PreviewDeploy.Proofs.SelfHeal
import PreviewDeploy.Proofs.EarlyAnswers
import PreviewDeploy.Proofs.StoredStates
import PreviewDeploy.Proofs.StoredIdentity
import PreviewDeploy.Proofs.StoredInstance
import PreviewDeploy.Proofs.FileSets
import PreviewDeploy.Proofs.WrittenFiles
import PreviewDeploy.Proofs.JoinedLoops
import PreviewDeploy.Proofs.IdentityHistory
import PreviewDeploy.Proofs.Delays
import PreviewDeploy.Proofs.Attempts
import PreviewDeploy.Proofs.Narratives
import PreviewDeploy.Proofs.Retries
import PreviewDeploy.Proofs.Calls
import PreviewDeploy.Proofs.ReadOnlyPaths
import PreviewDeploy.Proofs.ReadOnlyDirectories
import PreviewDeploy.Proofs.WatchHistory
import PreviewDeploy.Proofs.Timestamps
import PreviewDeploy.Proofs.StoredMirror
import PreviewDeploy.Proofs.Encodings
import PreviewDeploy.Proofs.JsonText
import PreviewDeploy.Proofs.JsonMembers
import PreviewDeploy.Proofs.MintedTokens
import PreviewDeploy.Proofs.OneClient
import PreviewDeploy.Proofs.HistoryRecords
import PreviewDeploy.Proofs.StatusOrder
import PreviewDeploy.Proofs.HistoryReadings
import PreviewDeploy.Proofs.Counters
import PreviewDeploy.Proofs.Accounting
import PreviewDeploy.Proofs.Shutdown
import PreviewDeploy.Proofs.StoreOutages
import PreviewDeploy.Proofs.SettingsFields
import PreviewDeploy.Proofs.SettingsLayers
import PreviewDeploy.Proofs.SavedSettings
import PreviewDeploy.Proofs.AcceptedTokens
import PreviewDeploy.Proofs.Selections
import PreviewDeploy.Proofs.ProjectFiles
import PreviewDeploy.Proofs.LostSessions
import PreviewDeploy.Proofs.WireForms
import PreviewDeploy.Proofs.StoredNumbers
import PreviewDeploy.Proofs.SiteChanges
import PreviewDeploy.Proofs.Encounters
import PreviewDeploy.Proofs.WholeTransactions
import PreviewDeploy.Proofs.SetupCommands
import PreviewDeploy.Proofs.MergedValues
import PreviewDeploy.Proofs.TextOrder
import PreviewDeploy.Proofs.WorkspaceFiles
import PreviewDeploy.Proofs.Fingerprints
import PreviewDeploy.Proofs.StoredTimes
